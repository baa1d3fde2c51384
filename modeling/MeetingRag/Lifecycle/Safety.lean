import MeetingRag.Lifecycle.Stop

/-!
# What the lifecycle does to Docker

Whatever Docker answers and whatever the manifest says, `docker compose down` comes after the checks of the
same call of `stop`: the snapshot of the project had the recorded resources, all of them labelled with the
project, and the protected project was what it had been. Everything else is read-only, but for the `up` of
the new project.

The runs are followed in two steps. A part of `stop` or `start` is *harmless* when it runs read-only
commands and `subst` only (`Harmless`); the one command that is not comes right after the parts that check.
-/

open Py Py.Json Program

namespace MeetingRag

namespace Compose

variable {h : Host}

/-! ## Commands -/

/-- A command that Docker changes nothing for. -/
inductive ReadOnly (h : Host) : List Str → Prop
  | ps (rest : List Str) : ReadOnly h (lit "docker" :: lit "ps" :: rest)
  | networks (rest : List Str) : ReadOnly h (lit "docker" :: lit "network" :: lit "ls" :: rest)
  | volumes (rest : List Str) : ReadOnly h (lit "docker" :: lit "volume" :: lit "ls" :: rest)
  | inspect (kind : Kind) (id : Str) : ReadOnly h [lit "docker", lit kind.inspect, lit "inspect", id]
  | config (target : ComposeTarget h) (rest : List Str) : ReadOnly h (target.argv ["config"] ++ rest)
  | logs (target : ComposeTarget h) (rest : List Str) : ReadOnly h (target.argv ["logs"] ++ rest)

/-- A `docker` command. -/
def IsDocker (argv : List Str) : Prop := argv.head? = some (lit "docker")

theorem not_isDocker_subst (rest : List Str) : ¬IsDocker (lit "subst" :: rest) := by
  rw [IsDocker, List.head?_cons, Option.some.injEq]
  decide

/-- `down` is not among the read-only commands. -/
theorem not_readOnly_down (target : ComposeTarget h) : ¬ReadOnly h target.down := by
  have hcompose : lit "compose" ≠ lit "ps" ∧ lit "compose" ≠ lit "network" ∧
      lit "compose" ≠ lit "volume" ∧ lit "down" ≠ lit "config" ∧ lit "down" ≠ lit "logs" := by decide
  obtain ⟨hps, hnetwork, hvolume, hconfig, hlogs⟩ := hcompose
  intro hread
  generalize hargv : target.down = argv at hread
  cases hread with
  | ps rest => exact hps (List.cons.inj (List.cons.inj hargv).2).1
  | networks rest => exact hnetwork (List.cons.inj (List.cons.inj hargv).2).1
  | volumes rest => exact hvolume (List.cons.inj (List.cons.inj hargv).2).1
  | inspect kind id => exact absurd (show 11 = 4 from congrArg List.length hargv) (by decide)
  | config target' rest =>
    have hat : target.down[8]? = (target'.argv ["config"] ++ rest)[8]? := congrArg (·[8]?) hargv
    exact hconfig (Option.some.inj hat)
  | logs target' rest =>
    have hat : target.down[8]? = (target'.argv ["logs"] ++ rest)[8]? := congrArg (·[8]?) hargv
    exact hlogs (Option.some.inj hat)

theorem up_ne_down (target target' : ComposeTarget h) : target.up ≠ target'.down := by
  intro heq
  have hat : target.up[8]? = target'.down[8]? := congrArg (·[8]?) heq
  exact absurd (Option.some.inj hat) (by decide)

theorem down_injective {target target' : ComposeTarget h} (heq : target.down = target'.down) :
    target = target' := by
  have hat : ∀ i : ℕ, target.down[i]? = target'.down[i]? := fun i ↦ congrArg (·[i]?) heq
  have hproject : target.project = target'.project := Option.some.inj (hat 3)
  have hbase : target.baseConfig = target'.baseConfig := Option.some.inj (hat 5)
  have hn4 : target.n4Config = target'.n4Config := Option.some.inj (hat 7)
  cases target
  cases target'
  subst hproject hbase hn4
  rfl

/-! ## Harmless parts -/

/-- An operation that changes nothing in Docker and does not read the manifest. -/
def Harmless (h : Host) : Operation → Prop
  | .run argv _ => IsDocker argv → ReadOnly h argv
  | .load => False
  | .save _ => True
  | .archive => True

/-- A command that only reads. -/
def Reading (h : Host) : Operation → Prop
  | .run argv _ => ReadOnly h argv ∨ argv = [lit "subst"]
  | _ => False

theorem harmless_of_reading (op : Operation) (hop : Reading h op) : Harmless h op := by
  cases op with
  | run argv ports =>
    refine fun hdocker ↦ hop.resolve_right fun hsubst ↦ not_isDocker_subst [] ?_
    exact hsubst ▸ hdocker
  | load => exact hop.elim
  | save manifest => exact hop.elim
  | archive => exact hop.elim

theorem only_subst {argv : List Str} {ports : Option (ℤ × ℤ)} :
    Only (Harmless h) (runner (lit "subst" :: argv) ports) :=
  only_perform fun hdocker ↦ absurd hdocker (not_isDocker_subst argv)

theorem only_save (manifest : Fields) : Only (Harmless h) (save manifest) := only_perform trivial

theorem only_rescue {α : Type} {P : Operation → Prop} {p : Proc α} {f : Str → Proc α} (hp : Only P p)
    (hf : ∀ message, Only P (f message)) : Only P (rescue p f) := by
  refine only_handle hp fun e ↦ ?_
  cases e with
  | lifecycle message => exact hf message
  | other => exact trivial

theorem only_recording {α : Type} {manifest : Fields} {p : Proc α} (hp : Only (Harmless h) p) :
    Only (Harmless h) (recording manifest p) :=
  only_rescue hp fun _ ↦ only_bind (only_save manifest) fun _ ↦ trivial

theorem reading_snapshotKind (project : Str) (kind : Kind) :
    Only (Reading h) (snapshotKind h project kind) := by
  refine only_bind (only_perform (.inl ?_)) fun result ↦ ?_
  · cases kind with
    | containers => exact .ps _
    | networks => exact .networks _
    | volumes => exact .volumes _
  split
  · exact trivial
  · refine only_bind (only_forEach (fun line ↦ ?_) _) fun rows ↦ trivial
    refine only_bind (only_ofExcept _) fun row ↦ only_bind (only_ofExcept _) fun id ↦ ?_
    exact only_bind (only_perform (.inl (.inspect kind id))) fun result ↦
      only_bind (only_ofExcept _) fun inspected ↦ only_ofExcept _

theorem reading_snapshotProject (project : Str) : Only (Reading h) (snapshotProject h project) :=
  only_bind (reading_snapshotKind project _) fun _ ↦ only_bind (reading_snapshotKind project _) fun _ ↦
    only_bind (reading_snapshotKind project _) fun _ ↦ trivial

theorem reading_capture (project : Str) (attempts : ℕ) : Only (Reading h) (capture h project attempts) := by
  induction attempts with
  | zero => exact trivial
  | succ attempts ih => exact only_rescue (reading_snapshotProject project) fun _ ↦ ih

theorem reading_checkPhase0 (manifest : Fields) : Only (Reading h) (checkPhase0 h manifest) :=
  only_bind (reading_snapshotProject _) fun _ ↦ only_ofExcept _

theorem reading_substMapping (drive : Str) : Only (Reading h) (substMapping h drive) :=
  only_bind (only_perform (.inr rfl)) fun _ ↦ trivial

theorem reading_validateSubstOwnership (subst : Json) :
    Only (Reading h) (validateSubstOwnership h subst) := by
  refine only_bind (only_ofExcept _) fun drive ↦ only_bind (only_ofExcept _) fun target ↦
    only_bind (only_ofExcept _) fun created ↦ ?_
  split
  · exact only_ofExcept _
  · exact only_bind (reading_substMapping _) fun mapping ↦ only_ofExcept _

theorem reading_assertOwned (manifest : Fields) (current : Snapshot) (target : ComposeTarget h) :
    Only (Reading h) (assertOwned h manifest current target) := by
  refine only_bind (only_ofExcept _) fun _ ↦ only_bind (reading_checkPhase0 manifest) fun _ ↦ ?_
  split
  · exact trivial
  · exact reading_validateSubstOwnership _

theorem only_snapshotProject (project : Str) : Only (Harmless h) (snapshotProject h project) :=
  (reading_snapshotProject project).mono harmless_of_reading

theorem only_capture (project : Str) (attempts : ℕ) : Only (Harmless h) (capture h project attempts) :=
  (reading_capture project attempts).mono harmless_of_reading

theorem only_checkPhase0 (manifest : Fields) : Only (Harmless h) (checkPhase0 h manifest) :=
  (reading_checkPhase0 manifest).mono harmless_of_reading

theorem only_validateSubstOwnership (subst : Json) :
    Only (Harmless h) (validateSubstOwnership h subst) :=
  (reading_validateSubstOwnership subst).mono harmless_of_reading

theorem only_assertOwned (manifest : Fields) (current : Snapshot) (target : ComposeTarget h) :
    Only (Harmless h) (assertOwned h manifest current target) :=
  (reading_assertOwned manifest current target).mono harmless_of_reading

theorem only_removeOwnedSubst (subst : Json) : Only (Harmless h) (removeOwnedSubst h subst) := by
  refine only_bind (only_validateSubstOwnership subst) fun _ ↦ only_bind (only_ofExcept _) fun drive ↦
    only_bind only_subst fun result ↦ ?_
  split <;> exact trivial

theorem only_recoverCapture (manifest : Fields) (current : Snapshot) (target : ComposeTarget h) :
    Only (Harmless h) (recoverCapture h manifest current target) := by
  rw [recoverCapture]
  split
  · exact only_bind (only_ofExcept _) fun _ ↦ only_bind (only_checkPhase0 manifest) fun _ ↦
      only_bind (only_save _) fun _ ↦ trivial
  · exact trivial

theorem only_removeSubst (manifest : Fields) : Only (Harmless h) (removeSubst h manifest) := by
  rw [removeSubst]
  split
  · exact trivial
  · exact only_bind (only_recording (only_removeOwnedSubst _)) fun _ ↦
      only_bind (only_save _) fun _ ↦ trivial

theorem only_finishStop (manifest : Fields) : Only (Harmless h) (finishStop h manifest) := by
  refine only_bind (only_recording (only_checkPhase0 manifest)) fun _ ↦ ?_
  dsimp only
  split
  · exact only_bind (only_save _) fun _ ↦ trivial
  · exact trivial

/-! ## Ownership -/

/-- `row.get("id")`, where there is a row. -/
def idField : Json → Json
  | .object fields => get fields "id"
  | _ => .null

/-- The identifiers that a manifest records for a kind. -/
def recordedIds (manifest : Fields) (kind : Kind) : List Json :=
  match get manifest "resources" with
  | .object resources => match get resources kind.name with
    | .array rows => rows.map idField
    | _ => []
  | _ => []

/-- The resources of a snapshot are those of a project. -/
def Labelled (project : Str) (current : Snapshot) : Prop :=
  ∀ kind, ∀ r ∈ current.of kind, ∃ labels, r.labels = .object labels ∧
    get labels "com.docker.compose.project" = .str project

/-- The resources of a snapshot are the recorded ones. -/
def Recorded (manifest : Fields) (current : Snapshot) : Prop :=
  ∀ kind id, id ∈ recordedIds manifest kind ↔ ∃ r ∈ current.of kind, id = .str r.id

theorem get_of_not_has {fields : Fields} {name : String} (h : ¬Has fields name) :
    get fields name = .null := by
  rw [Json.get, Option.map_eq_none_iff.mpr]
  · rfl
  · exact List.find?_eq_none.mpr fun p hp ↦ by simpa using fun heq ↦ h ⟨p, hp, heq⟩

theorem memberOr_null_eq_ok {name : String} {v w : Json} :
    memberOr .null name v = .ok w ↔ ∃ fields, v = .object fields ∧ w = get fields name := by
  cases v with
  | object fields =>
    rw [memberOr]
    by_cases hhas : Has fields name
    · rw [if_pos hhas, Except.ok.injEq]
      exact ⟨fun heq ↦ ⟨fields, rfl, heq.symm⟩, fun ⟨_, hfields, heq⟩ ↦ by cases hfields; exact heq.symm⟩
    · rw [if_neg hhas, Except.ok.injEq]
      refine ⟨fun heq ↦ ⟨fields, rfl, heq.symm.trans (get_of_not_has hhas).symm⟩, fun ⟨_, hfields, heq⟩ ↦ ?_⟩
      cases hfields
      exact (heq.trans (get_of_not_has hhas)).symm
  | _ => simp [memberOr]

theorem rowIds_eq_ok {rows ids : List Json} (hids : rowIds rows = .ok ids) : ids = rows.map idField := by
  have hforall := Outcome.mapM_eq_ok.mp hids
  induction hforall with
  | nil => rfl
  | cons hrow hrest ih =>
    obtain ⟨fields, rfl, rfl⟩ := memberOr_null_eq_ok.mp hrow
    rw [List.map_cons, ih (Outcome.mapM_eq_ok.mpr hrest)]
    rfl

theorem label_of_assertRow {project : Str} {kind : Kind} {rows : List Json} {r : Resource}
    (hrow : assertRow project kind rows r = .ok ()) : ∃ labels, r.labels = .object labels ∧
      get labels "com.docker.compose.project" = .str project := by
  obtain ⟨label, hlabel, hrest⟩ := Outcome.bind_eq_ok.mp hrow
  obtain ⟨labels, hlabels, rfl⟩ := memberOr_null_eq_ok.mp hlabel
  obtain ⟨_, hequal, -⟩ := Outcome.bind_eq_ok.mp hrest
  exact ⟨labels, hlabels, eqStr_iff.mp (ensure_eq_ok.mp hequal)⟩

theorem assertKind_eq_ok {project : Str} {resources : Fields} {current : Snapshot} {kind : Kind}
    (hkind : assertKind project resources current kind = .ok ()) :
    (∀ id, id ∈ (match get resources kind.name with
        | .array rows => rows.map idField
        | _ => []) ↔ ∃ r ∈ current.of kind, id = .str r.id) ∧
      ∀ r ∈ current.of kind, ∃ labels, r.labels = .object labels ∧
        get labels "com.docker.compose.project" = .str project := by
  have hread : ∀ rows : List Json, (do
      let ids ← rowIds rows
      if ids.any fun id ↦ id.Unhashable then .error .other
      else do
        ensure ((∀ id ∈ ids, ∃ r ∈ current.of kind, EqStr r.id id) ∧
          ∀ r ∈ current.of kind, ∃ id ∈ ids, EqStr r.id id) (kind.name ++ " ID set mismatch")
        (current.of kind).forM (assertRow project kind rows)) = .ok () →
      (∀ id, id ∈ rows.map idField ↔ ∃ r ∈ current.of kind, id = .str r.id) ∧
        ∀ r ∈ current.of kind, ∃ labels, r.labels = .object labels ∧
          get labels "com.docker.compose.project" = .str project := by
    intro rows hrows
    obtain ⟨ids, hids, hrows⟩ := Outcome.bind_eq_ok.mp hrows
    obtain rfl := rowIds_eq_ok hids
    split at hrows
    · cases hrows
    obtain ⟨_, hsets, hlabels⟩ := Outcome.bind_eq_ok.mp hrows
    obtain ⟨hrecorded, hpresent⟩ := ensure_eq_ok.mp hsets
    refine ⟨fun id ↦ ⟨fun hid ↦ ?_, ?_⟩, fun r hr ↦ label_of_assertRow (Outcome.forM_eq_ok.mp hlabels r hr)⟩
    · obtain ⟨r, hr, heq⟩ := hrecorded id hid
      exact ⟨r, hr, eqStr_iff.mp heq⟩
    · rintro ⟨r, hr, rfl⟩
      obtain ⟨id, hid, heq⟩ := hpresent r hr
      exact eqStr_iff.mp heq ▸ hid
  rw [assertKind] at hkind
  by_cases hhas : Has resources kind.name
  · rw [if_pos hhas] at hkind
    cases hrows : get resources kind.name
    case array rows =>
      rw [hrows] at hkind
      exact hread rows hkind
    all_goals
      rw [hrows] at hkind
      exact nomatch hkind
  · rw [if_neg hhas] at hkind
    rw [get_of_not_has hhas]
    exact hread [] hkind

/-- **What the ownership check establishes.** -/
theorem owned_of_assert {manifest : Fields} {current : Snapshot} {target : ComposeTarget h}
    (hassert : assertResourceOwnership h manifest current target = .ok ()) :
    ∃ project, get manifest "project" = .str project ∧ Labelled project current ∧
      Recorded manifest current := by
  obtain ⟨-, -, hassert⟩ := Outcome.bind_eq_ok.mp hassert
  split at hassert
  · rename_i project hproject
    obtain ⟨-, -, hassert⟩ := Outcome.bind_eq_ok.mp hassert
    split at hassert
    · rename_i resources hresources
      have hkinds : ∀ kind : Kind, assertKind project resources current kind = .ok () := by
        intro kind
        refine Outcome.forM_eq_ok.mp hassert kind ?_
        cases kind <;> decide
      refine ⟨project, hproject, fun kind ↦ (assertKind_eq_ok (hkinds kind)).2, fun kind id ↦ ?_⟩
      rw [recordedIds, hresources]
      exact (assertKind_eq_ok (hkinds kind)).1 id
    · cases hassert
  · cases hassert

/-! ## Fields of the manifest -/

theorem has_setItem (fields : Fields) (key name : String) (v : Json) :
    Has (setItem fields (lit key, v)) name ↔ key = name ∨ Has fields name := by
  rw [setItem]
  split
  · rename_i hkey
    obtain ⟨q, hq, hsame⟩ := hkey
    constructor
    · rintro ⟨p, hp, hname⟩
      obtain ⟨p', hp', rfl⟩ := List.mem_map.mp hp
      split at hname
      · exact .inl (lit_injective hname)
      · exact .inr ⟨p', hp', hname⟩
    · rintro (rfl | ⟨p, hp, hname⟩)
      · exact ⟨_, List.mem_map_of_mem hq, by rw [if_pos hsame]⟩
      · refine ⟨_, List.mem_map_of_mem hp, ?_⟩
        split
        · rename_i hp'
          exact hp'.symm.trans hname
        · exact hname
  · constructor
    · rintro ⟨p, hp, hname⟩
      rcases List.mem_append.mp hp with hp | hp
      · exact .inr ⟨p, hp, hname⟩
      · rw [List.mem_singleton.mp hp] at hname
        exact .inl (lit_injective hname)
    · rintro (rfl | ⟨p, hp, hname⟩)
      · exact ⟨_, List.mem_append_right _ (List.mem_singleton_self _), rfl⟩
      · exact ⟨p, List.mem_append_left _ hp, hname⟩

/-- A lookup looks at one field after the other. -/
theorem get_cons (p : Str × Json) (fields : Fields) (name : String) :
    get (p :: fields) name = if p.1 = lit name then p.2 else get fields name := by
  rw [Json.get, List.find?_cons]
  split
  · rename_i hp
    rw [if_pos (of_decide_eq_true hp)]
    rfl
  · rename_i hp
    rw [if_neg (of_decide_eq_false hp)]
    rfl

theorem has_cons (p : Str × Json) (fields : Fields) (name : String) :
    Has (p :: fields) name ↔ p.1 = lit name ∨ Has fields name := by
  rw [Has, List.exists_mem_cons_iff]
  rfl

theorem get_append (fields : Fields) (p : Str × Json) (name : String) :
    get (fields ++ [p]) name = if Has fields name then get fields name else get [p] name := by
  induction fields with
  | nil => rw [if_neg (by simp [Has]), List.nil_append]
  | cons q fields ih =>
    rw [List.cons_append, get_cons, get_cons, ih]
    by_cases hq : q.1 = lit name
    · simp [hq, has_cons]
    · simp [hq, has_cons]

theorem get_setItem (fields : Fields) (key name : String) (v : Json) :
    get (setItem fields (lit key, v)) name = if key = name then v else get fields name := by
  have hiff : lit key = lit name ↔ key = name := lit_injective.eq_iff
  have hreplace : get (fields.map fun q ↦ if q.1 = lit key then (lit key, v) else q) name =
      if key = name ∧ Has fields key then v else get fields name := by
    induction fields with
    | nil => simp [Has, Json.get]
    | cons q fields ih =>
      rw [List.map_cons, get_cons, get_cons, ih]
      by_cases hq : q.1 = lit key
      · by_cases hname : key = name
        · simp [hq, hname, has_cons]
        · simp [hq, hname, hiff]
      · by_cases hname : key = name
        · subst hname
          simp [hq, has_cons]
        · simp [hq, hname]
  rw [setItem]
  split
  · rename_i hkey
    rw [hreplace]
    exact if_congr (and_iff_left hkey) rfl rfl
  · rename_i hkey
    rw [get_append, get_cons]
    by_cases hname : key = name
    · subst hname
      have hhas : ¬Has fields key := hkey
      rw [if_neg hhas, if_pos rfl, if_pos rfl]
    · rw [if_neg (mt hiff.mp hname), if_neg hname]
      split
      · rfl
      · rename_i hhas
        exact (get_of_not_has hhas).symm

/-- What `update` does not name is left alone. -/
theorem update_of_not_mem {fields : Fields} {items : List (String × Json)} {name : String}
    (hname : name ∉ items.map Prod.fst) : get (update fields items) name = get fields name ∧
      (Has (update fields items) name ↔ Has fields name) := by
  induction items generalizing fields with
  | nil => exact ⟨rfl, Iff.rfl⟩
  | cons item items ih =>
    rw [List.map_cons, List.mem_cons, not_or] at hname
    obtain ⟨hget, hhas⟩ := @ih (setItem fields (lit item.1, item.2)) hname.2
    rw [get_setItem, if_neg (Ne.symm hname.1)] at hget
    rw [has_setItem, or_iff_right (Ne.symm hname.1)] at hhas
    exact ⟨hget, hhas⟩

theorem phase0Before_update {fields : Fields} {items : List (String × Json)}
    (hname : "phase0_before" ∉ items.map Prod.fst) :
    phase0Before (update fields items) = phase0Before fields := by
  obtain ⟨hget, hhas⟩ := @update_of_not_mem fields _ _ hname
  rw [phase0Before, phase0Before, hget]
  simp only [hhas]

/-! ## The runs of `stop` -/

/-- What has happened in a call of `stop` when it comes to `down`: a snapshot of the project with the
recorded resources, or with those that are adopted, and one of the protected project. -/
def Checked (h : Host) (manifest : Fields) (target : ComposeTarget h) (t : List (Event Answer)) : Prop :=
  ∃ s r p q current phase0, t = s ++ (r ++ (p ++ q)) ∧
    Runs (snapshotProject h target.project) s (.ok current) ∧
    Runs (snapshotProject h protectedProject) p (.ok phase0) ∧
    same (phase0Before manifest) phase0.json = true ∧ Labelled target.project current ∧
    (Recorded manifest current ∨ Recovering manifest)

/-- All operations of a trace are harmless. -/
def AllHarmless (h : Host) (t : List (Event Answer)) : Prop := ∀ event ∈ t, Harmless h event.1

theorem allHarmless_append {t t' : List (Event Answer)} :
    AllHarmless h (t ++ t') ↔ AllHarmless h t ∧ AllHarmless h t' := List.forall_mem_append

theorem runs_recording {α : Type} {manifest : Fields} {p : Proc α} {t : List (Event Answer)} {a : α}
    (hrun : Runs (recording manifest p) t (.ok a)) : Runs p t (.ok a) := by
  rcases runs_handle_iff.mp hrun with ⟨b, hp, heq⟩ | ⟨e, t₁, t₂, -, hh, -⟩
  · exact heq ▸ hp
  · cases e with
    | lifecycle message =>
      rcases runs_bind_iff.mp hh with ⟨_, _, _, -, hraise, -⟩ | ⟨_, -, heq⟩
      · exact nomatch (runs_raise_iff.mp hraise).2
      · exact nomatch heq
    | other => exact nomatch (runs_raise_iff.mp hh).2

/-- `down` is the first operation after the checks, and the only one of its kind. -/
theorem runs_composeDown {manifest : Fields} {current : Snapshot} {target : ComposeTarget h}
    {t : List (Event Answer)} {x : Except Failure Fields}
    (hrun : Runs (composeDown h manifest current target) t x) : t = [] ∨
      ∃ ports result b, t = ⟨.run target.down ports, result⟩ :: b ∧ AllHarmless h b := by
  rcases runs_ofExcept_bind_iff.mp hrun with ⟨web, -, hweb⟩ | ⟨_, -, hnil, -⟩
  swap
  · exact .inl hnil
  rcases runs_ofExcept_bind_iff.mp hweb with ⟨api, -, hapi⟩ | ⟨_, -, hnil, -⟩
  swap
  · exact .inl hnil
  rcases runs_bind_iff.mp hapi with ⟨result, t₁, t₂, hdown, hrest, rfl⟩ | ⟨_, herror, -⟩
  swap
  · obtain ⟨r, -, heq⟩ := runs_perform_iff.mp herror
    exact nomatch heq
  obtain ⟨r, rfl, -⟩ := runs_perform_iff.mp hdown
  refine .inr ⟨_, r, t₂, rfl, Only.of_runs ?_ hrest⟩
  split
  · exact only_bind (only_save _) fun _ ↦ only_ofExcept _
  · refine only_bind (only_capture _ _) fun remaining ↦ ?_
    split
    · exact only_bind (only_save _) fun _ ↦ only_ofExcept _
    · exact only_bind (only_save _) fun _ ↦ trivial

/-- The manifest after the adoption of resources is the same, or a recovering one with new resources. -/
theorem runs_recoverCapture {manifest manifest' : Fields} {current : Snapshot} {target : ComposeTarget h}
    {t : List (Event Answer)} (hrun : Runs (recoverCapture h manifest current target) t (.ok manifest')) :
    (manifest' = manifest ∨ Recovering manifest) ∧ phase0Before manifest' = phase0Before manifest ∧
      get manifest' "project" = get manifest "project" := by
  rw [recoverCapture] at hrun
  split at hrun
  · rename_i hrecovering
    rcases runs_bind_iff.mp hrun with ⟨_, _, _, -, hrest, -⟩ | ⟨_, -, heq⟩
    · rcases runs_bind_iff.mp hrest with ⟨_, _, _, -, hrest, -⟩ | ⟨_, -, heq⟩
      · rcases runs_bind_iff.mp hrest with ⟨_, _, _, -, hdone, -⟩ | ⟨_, -, heq⟩
        · obtain ⟨-, hdone⟩ := runs_done_iff.mp hdone
          obtain rfl := Except.ok.inj hdone
          exact ⟨.inr hrecovering, phase0Before_update (by simp), (update_of_not_mem (by simp)).1⟩
        · exact nomatch heq
      · exact nomatch heq
    · exact nomatch heq
  · obtain ⟨-, hdone⟩ := runs_done_iff.mp hrun
    obtain rfl := Except.ok.inj hdone
    exact ⟨.inl rfl, rfl, rfl⟩

/-- What `assertOwned` has seen when it returns. -/
theorem runs_assertOwned {manifest : Fields} {current : Snapshot} {target : ComposeTarget h}
    {t : List (Event Answer)} (hrun : Runs (assertOwned h manifest current target) t (.ok ())) :
    (∃ project, get manifest "project" = .str project ∧ Labelled project current ∧
      Recorded manifest current) ∧ ∃ p q phase0, t = p ++ q ∧
        Runs (snapshotProject h protectedProject) p (.ok phase0) ∧
          same (phase0Before manifest) phase0.json = true := by
  rcases runs_ofExcept_bind_iff.mp hrun with ⟨_, hassert, hrest⟩ | ⟨_, -, -, heq⟩
  swap
  · exact nomatch heq
  refine ⟨owned_of_assert hassert, ?_⟩
  rcases runs_bind_iff.mp hrest with ⟨_, t₁, t₂, hphase0, -, rfl⟩ | ⟨_, -, heq⟩
  swap
  · exact nomatch heq
  rcases runs_bind_iff.mp hphase0 with ⟨phase0, p, t₃, hsnapshot, hequal, rfl⟩ | ⟨_, -, heq⟩
  swap
  · exact nomatch heq
  obtain ⟨rfl, hsame⟩ := runs_ofExcept_iff.mp hequal
  exact ⟨p, t₂, phase0, by rw [List.append_nil], hsnapshot, ensure_eq_ok.mp hsame.symm⟩

/-- **`down` comes after the checks.** -/
theorem runs_removeResources {manifest : Fields} {target : ComposeTarget h} {t : List (Event Answer)}
    {x : Except Failure Fields} (htarget : ∀ project, get manifest "project" = .str project →
      target.project = project) (hrun : Runs (removeResources h manifest target) t x) :
    AllHarmless h t ∨ ∃ a ports result b, t = a ++ ⟨.run target.down ports, result⟩ :: b ∧
      AllHarmless h a ∧ AllHarmless h b ∧ Checked h manifest target a := by
  rw [removeResources] at hrun
  split at hrun
  · exact .inl (by rw [(runs_done_iff.mp hrun).1]; exact fun _ hmem ↦ absurd hmem List.not_mem_nil)
  rcases runs_bind_iff.mp hrun with ⟨current, s, t₁, hsnapshot, hrest₁, rfl⟩ | ⟨_, herror, -⟩
  swap
  · exact .inl (Only.of_runs (only_snapshotProject _) herror)
  have hs : AllHarmless h s := Only.of_runs (only_snapshotProject _) hsnapshot
  rcases runs_bind_iff.mp hrest₁ with ⟨manifest', r, t₂, hrecover, hrest₂, rfl⟩ | ⟨_, herror, -⟩
  swap
  · exact .inl (allHarmless_append.mpr
      ⟨hs, Only.of_runs (only_recording (only_recoverCapture _ _ _)) herror⟩)
  have hr : AllHarmless h r := Only.of_runs (only_recording (only_recoverCapture _ _ _)) hrecover
  obtain ⟨hsame, hbefore, hproject⟩ := runs_recoverCapture (runs_recording hrecover)
  rcases runs_bind_iff.mp hrest₂ with ⟨_, o, t₃, howned, hrest₃, rfl⟩ | ⟨_, herror, -⟩
  swap
  · exact .inl (allHarmless_append.mpr ⟨hs, allHarmless_append.mpr
      ⟨hr, Only.of_runs (only_recording (only_assertOwned _ _ _)) herror⟩⟩)
  have ho : AllHarmless h o := Only.of_runs (only_recording (only_assertOwned _ _ _)) howned
  obtain ⟨⟨project, hget, hlabelled, hrecorded⟩, p, q, phase0, rfl, hphase0, hequal⟩ :=
    runs_assertOwned (runs_recording howned)
  have hprojects : target.project = project := htarget project (hproject ▸ hget)
  have hchecks : AllHarmless h (s ++ (r ++ (p ++ q))) :=
    allHarmless_append.mpr ⟨hs, allHarmless_append.mpr ⟨hr, ho⟩⟩
  have hassoc : ∀ u : List (Event Answer), s ++ (r ++ (p ++ q ++ u)) = s ++ (r ++ (p ++ q)) ++ u :=
    fun u ↦ by simp only [List.append_assoc]
  rw [hassoc]
  split at hrest₃
  · rcases runs_composeDown hrest₃ with rfl | ⟨ports, result, b, rfl, hb⟩
    · exact .inl (by rwa [List.append_nil])
    · refine .inr ⟨_, ports, result, b, rfl, hchecks, hb, s, r, p, q, current, phase0, rfl, hsnapshot,
        hphase0, hbefore ▸ hequal, hprojects ▸ hlabelled, ?_⟩
      exact hsame.imp (fun heq : manifest' = manifest ↦ heq ▸ hrecorded) id
  · refine .inl (allHarmless_append.mpr ⟨hchecks, Only.of_runs ?_ hrest₃⟩)
    exact only_bind (only_save _) fun _ ↦ trivial

theorem project_of_composeTarget {project base n4 : Str} {target : ComposeTarget h}
    (htarget : composeTarget h project base n4 = .ok target) : target.project = project := by
  rw [composeTarget] at htarget
  split at htarget
  · split at htarget
    · rw [← Except.ok.inj htarget]
    · cases htarget
  · cases htarget

/-- The target of a manifest has its project. -/
theorem project_of_targetFromManifest {manifest : Fields} {target : ComposeTarget h}
    (htarget : targetFromManifest h manifest = .ok target) :
    target.project = h.str (if Has manifest "project" then get manifest "project" else .str []) := by
  obtain ⟨_, -, hrest⟩ := Outcome.bind_eq_ok.mp htarget
  obtain ⟨expected, -, hrest⟩ := Outcome.bind_eq_ok.mp hrest
  obtain ⟨_, -, hrest⟩ := Outcome.bind_eq_ok.mp hrest
  exact project_of_composeTarget hrest

theorem project_of_str {manifest : Fields} {target : ComposeTarget h}
    (htarget : targetFromManifest h manifest = .ok target) {project : Str}
    (hproject : get manifest "project" = .str project) : target.project = project := by
  have hhas : Has manifest "project" := by
    by_contra hnone
    rw [get_of_not_has hnone] at hproject
    cases hproject
  rw [project_of_targetFromManifest htarget, if_pos hhas, hproject, h.str_str]

/-- The manifest is read first. -/
theorem runs_readManifest {t : List (Event Answer)} {x : Except Failure Fields}
    (hrun : Runs readManifest t x) : ∃ r, t = [⟨.load, r⟩] ∧
      ∀ manifest, x = .ok manifest → r = .json (.object manifest) := by
  rcases runs_bind_iff.mp hrun with ⟨loaded, t₁, t₂, hload, hrest, rfl⟩ | ⟨_, herror, -⟩
  swap
  · obtain ⟨r, -, heq⟩ := runs_perform_iff.mp herror
    exact nomatch heq
  obtain ⟨r, rfl, hr⟩ := runs_perform_iff.mp hload
  obtain rfl := Except.ok.inj hr
  split at hrest
  · obtain ⟨rfl, rfl⟩ := runs_done_iff.mp hrest
    refine ⟨_, rfl, fun manifest heq ↦ ?_⟩
    rw [Except.ok.inj heq]
  · obtain ⟨rfl, rfl⟩ := runs_ofExcept_iff.mp hrest
    exact ⟨_, rfl, fun manifest heq ↦ nomatch heq⟩
  · obtain ⟨rfl, rfl⟩ := runs_ofExcept_iff.mp hrest
    exact ⟨_, rfl, fun manifest heq ↦ nomatch heq⟩

/-- **The runs of `stop`**: the manifest is read, and after that everything is harmless, but for one `down`
that comes after the checks. -/
theorem runs_stop {t : List (Event Answer)} {x : Except Failure Fields} (hrun : Runs (stop h) t x) :
    ∃ r m, t = ⟨.load, r⟩ :: m ∧ (AllHarmless h m ∨ ∃ manifest target a ports result b,
      r = .json (.object manifest) ∧ m = a ++ ⟨.run (ComposeTarget.down target) ports, result⟩ :: b ∧
        AllHarmless h a ∧ AllHarmless h b ∧ Checked h manifest target a) := by
  rcases runs_bind_iff.mp hrun with ⟨manifest, t₁, m, hread, hrest, rfl⟩ | ⟨_, herror, -⟩
  swap
  · obtain ⟨r, rfl, -⟩ := runs_readManifest herror
    exact ⟨r, [], rfl, .inl fun _ hmem ↦ absurd hmem List.not_mem_nil⟩
  obtain ⟨r, rfl, hr⟩ := runs_readManifest hread
  refine ⟨r, m, rfl, ?_⟩
  rcases runs_ofExcept_bind_iff.mp hrest with ⟨_, -, htargeted⟩ | ⟨_, -, rfl, -⟩
  swap
  · exact .inl fun _ hmem ↦ absurd hmem List.not_mem_nil
  rcases runs_bind_iff.mp htargeted with ⟨target, t₂, t₃, htarget, hremoved, rfl⟩ | ⟨_, herror, -⟩
  swap
  · exact .inl (Only.of_runs (only_recording (only_ofExcept _)) herror)
  obtain ⟨rfl, hfrom⟩ := runs_ofExcept_iff.mp (runs_recording htarget)
  rw [List.nil_append]
  have hproject : ∀ project, get manifest "project" = .str project → target.project = project :=
    fun project ↦ project_of_str hfrom.symm
  have hlast : ∀ manifest, Only (Harmless h) (removeSubst h manifest >>= finishStop h) :=
    fun manifest ↦ only_bind (only_removeSubst manifest) only_finishStop
  rcases runs_bind_iff.mp hremoved with ⟨manifest', t₄, t₅, hremove, hfinish, rfl⟩ | ⟨_, herror, -⟩
  · have ht₅ : AllHarmless h t₅ := Only.of_runs (hlast manifest') hfinish
    rcases runs_removeResources hproject hremove with hall | ⟨a, ports, result, b, rfl, ha, hb, hchecked⟩
    · exact .inl (allHarmless_append.mpr ⟨hall, ht₅⟩)
    · refine .inr ⟨manifest, target, a, ports, result, b ++ t₅, hr manifest rfl, ?_, ha,
        allHarmless_append.mpr ⟨hb, ht₅⟩, hchecked⟩
      rw [List.append_assoc, List.cons_append]
  · rcases runs_removeResources hproject herror with hall | ⟨a, ports, result, b, rfl, ha, hb, hchecked⟩
    · exact .inl hall
    · exact .inr ⟨manifest, target, a, ports, result, b, hr manifest rfl, rfl, ha, hb, hchecked⟩

/-! ## The runs of `start` -/

/-- An operation of `start` outside of `stop`: it is read-only for Docker, or the `up` of the project. -/
def Starting (h : Host) (name : Str) : Operation → Prop
  | .run argv _ => IsDocker argv → ReadOnly h argv ∨
      ∃ target : ComposeTarget h, target.project = name ∧ argv = target.up
  | _ => True

/-- Every run is one of such operations, with a run of `stop` at its end or none. -/
def EndsWithStop {α : Type} (h : Host) (name : Str) (p : Proc α) : Prop :=
  ∀ t x, Runs p t x → ∃ a s, t = a ++ s ∧ (∀ event ∈ a, Starting h name event.1) ∧
    (s = [] ∨ ∃ y, Runs (stop h) s y)

section Start

variable {name : Str} {α β : Type}

theorem starting_of_harmless {op : Operation} (hop : Harmless h op) : Starting h name op := by
  cases op with
  | run argv ports => exact fun hdocker ↦ .inl (hop hdocker)
  | load => exact hop.elim
  | save manifest => exact trivial
  | archive => exact trivial

theorem only_starting {p : Proc α} (hp : Only (Harmless h) p) : Only (Starting h name) p :=
  hp.mono fun _ ↦ starting_of_harmless

theorem endsWithStop_of_only {p : Proc α} (hp : Only (Starting h name) p) : EndsWithStop h name p :=
  fun t _ hrun ↦ ⟨t, [], (List.append_nil t).symm, hp.of_runs hrun, .inl rfl⟩

theorem endsWithStop_bind {p : Proc α} {f : α → Proc β} (hp : Only (Starting h name) p)
    (hf : ∀ a, EndsWithStop h name (f a)) : EndsWithStop h name (p >>= f) := by
  intro t x hrun
  rcases runs_bind_iff.mp hrun with ⟨a, t₁, t₂, hfirst, hsecond, rfl⟩ | ⟨e, hfirst, -⟩
  · obtain ⟨b, s, rfl, hb, hs⟩ := hf a t₂ x hsecond
    exact ⟨t₁ ++ b, s, (List.append_assoc _ _ _).symm,
      List.forall_mem_append.mpr ⟨hp.of_runs hfirst, hb⟩, hs⟩
  · exact ⟨t, [], (List.append_nil t).symm, hp.of_runs hfirst, .inl rfl⟩

theorem only_harmless_save (manifest : Fields) : Only (Starting h name) (save manifest) :=
  only_starting (only_save manifest)

theorem only_config {target : ComposeTarget h} {ports : Option (ℤ × ℤ)} :
    Only (Starting h name) (runner (target.argv ["config", "--format", "json"]) ports) :=
  only_perform fun _ ↦ .inl (.config target [lit "--format", lit "json"])

theorem only_up {target : ComposeTarget h} {ports : Option (ℤ × ℤ)} (hname : target.project = name) :
    Only (Starting h name) (runner target.up ports) :=
  only_perform fun _ ↦ .inr ⟨target, hname, rfl⟩

theorem only_recordSubst (manifest : Fields) (record : Option (Str × List (String × Json))) :
    Only (Harmless h) (recordSubst h manifest record) := only_bind (only_save _) fun _ ↦ trivial

theorem only_substMapping (drive : Str) : Only (Harmless h) (substMapping h drive) :=
  (reading_substMapping drive).mono harmless_of_reading

theorem only_createSubstMapping (letters : List Char) (manifest : Fields) :
    Only (Harmless h) (createSubstMapping h manifest letters) := by
  induction letters generalizing manifest with
  | nil => exact trivial
  | cons letter letters ih =>
    refine only_bind (only_substMapping _) fun mapping ↦ ?_
    split
    · exact ih manifest
    refine only_bind (only_recordSubst _ _) fun manifest ↦ only_bind only_subst fun result ↦ ?_
    split
    · exact only_bind (only_recordSubst _ _) fun manifest ↦ ih manifest
    · refine only_bind (only_recordSubst _ _) fun manifest ↦ only_rescue ?_ fun _ ↦ trivial
      exact only_bind (only_validateSubstOwnership _) fun _ ↦ trivial

/-- A failed start ends with `stop`. -/
theorem endsWithStop_finishFailedStart (manifest : Fields) (failure : String) :
    EndsWithStop h name (finishFailedStart h manifest failure) := by
  refine endsWithStop_bind (only_harmless_save _) fun _ t x hrun ↦ ⟨[], t, rfl, nofun, .inr ?_⟩
  have hrescued : ∀ {y : Except Failure Fields}, Runs (rescue (stop h) fun cleanup ↦ .raise
      (.lifecycle (lit failure ++ lit "; partial-start cleanup blocked: " ++ cleanup))) t y →
        ∃ z, Runs (stop h) t z := by
    intro y hrescue
    rcases runs_handle_iff.mp hrescue with ⟨a, hstop, -⟩ | ⟨e, t₁, t₂, hstop, hraise, rfl⟩
    · exact ⟨_, hstop⟩
    · cases e with
      | lifecycle message =>
        obtain ⟨rfl, -⟩ := runs_raise_iff.mp hraise
        exact ⟨_, by rwa [List.append_nil]⟩
      | other =>
        obtain ⟨rfl, -⟩ := runs_raise_iff.mp hraise
        exact ⟨_, by rwa [List.append_nil]⟩
  rcases runs_bind_iff.mp hrun with ⟨a, t₁, t₂, hrescue, hraise, rfl⟩ | ⟨e, hrescue, -⟩
  · obtain ⟨rfl, -⟩ := runs_raise_iff.mp hraise
    rw [List.append_nil] at hrescued ⊢
    exact hrescued hrescue
  · exact hrescued hrescue

theorem endsWithStop_settle (manifest : Fields) (target : ComposeTarget h) (ports : ℤ × ℤ) (up : Completed)
    (resources : Snapshot) : EndsWithStop h name (settle h manifest target ports up resources) := by
  refine endsWithStop_bind (only_starting (only_recording (only_checkPhase0 manifest))) fun _ ↦ ?_
  split
  · dsimp only
    split
    · refine endsWithStop_bind (only_perform fun _ ↦ .inl ?_) fun logs ↦
        endsWithStop_finishFailedStart _ _
      have hlogs := ReadOnly.logs target
        ([lit "--no-color", lit "--tail", lit "40"] ++ (h.diagnostic up).2)
      rwa [← List.append_assoc] at hlogs
    · exact endsWithStop_finishFailedStart _ _
  · split
    · exact endsWithStop_finishFailedStart manifest _
    · exact endsWithStop_of_only trivial
    · exact endsWithStop_of_only (only_bind (only_harmless_save _) fun _ ↦ trivial)

theorem only_captureStarted (manifest : Fields) (project : Str) :
    Only (Starting h name) (captureStarted h manifest project) :=
  only_starting (only_recording (only_capture project 3))

theorem only_retryPreflight (manifest : Fields) (project : Str) (ports : ℤ × ℤ) :
    Only (Starting h name) (retryPreflight h manifest project ports) := by
  refine only_bind (only_starting (only_rescue (only_bind (only_checkPhase0 manifest) fun _ ↦ trivial)
    fun _ ↦ trivial)) fun unchanged ↦ ?_
  split
  · exact trivial
  refine only_bind (only_starting (only_createSubstMapping _ _)) fun created ↦ ?_
  dsimp only
  split
  · exact trivial
  · split
    · exact trivial
    · exact trivial
    · refine only_bind only_config fun config ↦ ?_
      split <;> exact trivial

/-- The target on a drive has the project. -/
theorem project_of_retryPreflight {manifest manifest' : Fields} {project : Str} {ports : ℤ × ℤ}
    {target : ComposeTarget h} {t : List (Event Answer)}
    (hrun : Runs (retryPreflight h manifest project ports) t (.ok (manifest', some target))) :
    target.project = project := by
  rcases runs_bind_iff.mp hrun with ⟨unchanged, _, _, -, hcreate, -⟩ | ⟨_, -, heq⟩
  swap
  · exact nomatch heq
  split at hcreate
  · exact nomatch (runs_done_iff.mp hcreate).2
  rcases runs_bind_iff.mp hcreate with ⟨created, _, _, -, hconfig, -⟩ | ⟨_, -, heq⟩
  swap
  · exact nomatch heq
  dsimp only at hconfig
  split at hconfig
  · exact nomatch (runs_done_iff.mp hconfig).2
  split at hconfig
  · exact nomatch (runs_done_iff.mp hconfig).2
  · exact nomatch (runs_raise_iff.mp hconfig).2
  rename_i target' htarget
  rcases runs_bind_iff.mp hconfig with ⟨config, _, _, -, hresolve, -⟩ | ⟨_, -, heq⟩
  swap
  · exact nomatch heq
  split at hresolve
  · exact nomatch (runs_done_iff.mp hresolve).2
  · exact nomatch (runs_raise_iff.mp hresolve).2
  · have hsame := Except.ok.inj (runs_done_iff.mp hresolve).2
    obtain rfl : target = target' := Option.some.inj (Prod.mk.inj hsame).2
    exact project_of_composeTarget htarget

theorem endsWithStop_launch (manifest : Fields) (subst : Json) {target : ComposeTarget h} (ports : ℤ × ℤ)
    (hname : target.project = name) : EndsWithStop h name (launch h manifest subst target ports) := by
  refine endsWithStop_bind (only_harmless_save _) fun _ ↦ endsWithStop_bind (only_up hname) fun up ↦
    endsWithStop_bind (only_captureStarted _ _) fun resources ↦ ?_
  dsimp only
  split
  · -- The target of the second attempt is made for the same project.
    intro t x hrun
    rcases runs_bind_iff.mp hrun with ⟨⟨manifest', retried⟩, t₁, t₂, hretry, hrest, rfl⟩ | ⟨e, hretry, -⟩
    swap
    · exact ⟨t, [], (List.append_nil t).symm, (only_retryPreflight _ _ _).of_runs hretry, .inl rfl⟩
    have ht₁ : ∀ event ∈ t₁, Starting h name event.1 := (only_retryPreflight _ _ _).of_runs hretry
    have hjoin : ∀ {p : Proc Fields}, EndsWithStop h name p → Runs p t₂ x → ∃ a s, t₁ ++ t₂ = a ++ s ∧
        (∀ event ∈ a, Starting h name event.1) ∧ (s = [] ∨ ∃ y, Runs (stop h) s y) := by
      intro p hp hrun
      obtain ⟨b, s, rfl, hb, hs⟩ := hp t₂ x hrun
      exact ⟨t₁ ++ b, s, (List.append_assoc _ _ _).symm, List.forall_mem_append.mpr ⟨ht₁, hb⟩, hs⟩
    cases retried with
    | none => exact hjoin (endsWithStop_finishFailedStart _ _) hrest
    | some target' =>
      have hname' : target'.project = name := (project_of_retryPreflight hretry).trans hname
      refine hjoin ?_ hrest
      exact endsWithStop_bind (only_harmless_save _) fun _ ↦ endsWithStop_bind (only_up hname') fun up ↦
        endsWithStop_bind (only_captureStarted _ _) fun resources ↦ endsWithStop_settle _ _ _ _ _
  · exact endsWithStop_settle _ _ _ _ _

theorem endsWithStop_configure (manifest : Fields) (subst : Json) {target : ComposeTarget h} (ports : ℤ × ℤ)
    (config : Completed) (hname : target.project = name) :
    EndsWithStop h name (configure h manifest subst target ports config) := by
  rw [configure]
  split
  · exact endsWithStop_launch manifest subst ports hname
  · exact endsWithStop_of_only trivial
  · split
    · exact endsWithStop_of_only trivial
    · refine endsWithStop_of_only (only_bind (only_starting (only_recording (only_removeOwnedSubst _)))
        fun _ ↦ only_bind (only_starting (only_recordSubst _ _)) fun _ ↦ trivial)

theorem only_archiveCompletedManifest : Only (Starting h name) archiveCompletedManifest := by
  refine only_bind (only_perform trivial) fun loaded ↦ ?_
  split
  · exact trivial
  · split
    · exact trivial
    · exact only_bind (only_ofExcept _) fun _ ↦ only_perform trivial
  · exact only_ofExcept _
  · exact only_ofExcept _

/-- **The runs of `start`.** -/
theorem endsWithStop_start (name : Str) (ports : ℤ × ℤ) (webHost webUrl : Str) :
    EndsWithStop h name (start h name ports webHost webUrl) := by
  refine endsWithStop_bind only_archiveCompletedManifest fun _ ↦ ?_
  -- The targets are made for the project, or there is none.
  cases htarget : composeTarget h name h.base h.override with
  | error e => exact endsWithStop_of_only trivial
  | ok target =>
    have hname : target.project = name := project_of_composeTarget htarget
    rw [ofExcept_ok, done_bind]
    refine endsWithStop_bind (only_ofExcept _) fun _ ↦
      endsWithStop_bind (only_starting (only_snapshotProject _)) fun present ↦
        endsWithStop_bind (only_ofExcept _) fun _ ↦
          endsWithStop_bind (only_starting (only_snapshotProject _)) fun phase0 ↦ ?_
    refine endsWithStop_bind only_config fun config ↦ ?_
    split
    · refine endsWithStop_bind (only_starting (only_createSubstMapping _ _)) fun created ↦ ?_
      dsimp only
      split
      · exact endsWithStop_of_only (only_bind (only_harmless_save _) fun _ ↦ trivial)
      · rename_i drive record _
        cases hdrive : driveTarget h name drive with
        | error e => exact endsWithStop_of_only trivial
        | ok target' =>
          rw [ofExcept_ok, done_bind]
          exact endsWithStop_bind only_config fun config ↦
            endsWithStop_configure _ _ _ _ (project_of_composeTarget hdrive)
    · exact endsWithStop_configure _ _ _ _ hname

end Start

/-! ## Teardown -/

/-- In a trace, the commands that are run for a call come after the last time that the manifest is read. -/
def SinceRead (manifest : Fields) (pre a : List (Event Answer)) : Prop :=
  ∃ before, pre = before ++ ⟨.load, .json (.object manifest)⟩ :: a

/-- A `down` that comes after the checks of its call: the checks stand after the last time that the
manifest was read. -/
def Guarded (h : Host) (target : ComposeTarget h) (pre : List (Event Answer)) : Prop :=
  ∃ manifest a, SinceRead manifest pre a ∧ (∀ event ∈ a, event.1 ≠ .load) ∧ Checked h manifest target a

/-- Every `docker` command of a trace is read-only, the `up` of the project of a start, or a guarded
`down`. -/
def CommandsSafe (h : Host) (name : Option Str) (t : List (Event Answer)) : Prop :=
  ∀ pre argv ports result post, t = pre ++ ⟨.run argv ports, result⟩ :: post → IsDocker argv →
    ReadOnly h argv ∨ (∃ target : ComposeTarget h, some target.project = name ∧ argv = target.up) ∨
      ∃ target : ComposeTarget h, argv = target.down ∧ Guarded h target pre

/-- Harmless operations are safe, wherever they stand. -/
theorem safe_stop {t : List (Event Answer)} {x : Except Failure Fields} (name : Option Str)
    (hrun : Runs (stop h) t x) (before : List (Event Answer))
    (hbefore : ∀ event ∈ before, ∀ argv ports, event.1 = .run argv ports → IsDocker argv →
      ReadOnly h argv ∨ ∃ target : ComposeTarget h, some target.project = name ∧ argv = target.up) :
    CommandsSafe h name (before ++ t) := by
  obtain ⟨r, m, rfl, hm⟩ := runs_stop hrun
  intro pre argv ports result post hsplit hdocker
  -- An event of a harmless part is read-only, and the reading of the manifest is no command.
  have hharmless : ∀ {u : List (Event Answer)}, AllHarmless h u →
      ⟨.run argv ports, result⟩ ∈ u → ReadOnly h argv := fun hu hmem ↦ hu _ hmem hdocker
  rcases hm with hall | ⟨manifest, target, a, ports', result', b, rfl, rfl, ha, hb, hchecked⟩
  · have hmem : (⟨.run argv ports, result⟩ : Event Answer) ∈ before ++ ⟨.load, r⟩ :: m :=
      hsplit ▸ List.mem_append_right _ List.mem_cons_self
    rcases List.mem_append.mp hmem with hmem | hmem
    · exact (hbefore _ hmem argv ports rfl hdocker).imp_right .inl
    · rcases List.mem_cons.mp hmem with heq | hmem
      · exact nomatch congrArg Sigma.fst heq
      · exact .inl (hharmless hall hmem)
  · have hearlier : (⟨.run argv ports, result⟩ : Event Answer) ∈
        before ++ ⟨.load, .json (.object manifest)⟩ :: a → ReadOnly h argv ∨
          ∃ target : ComposeTarget h, some target.project = name ∧ argv = target.up := by
      intro hmem
      rcases List.mem_append.mp hmem with hmem | hmem
      · exact hbefore _ hmem argv ports rfl hdocker
      · rcases List.mem_cons.mp hmem with heq | hmem
        · exact nomatch congrArg Sigma.fst heq
        · exact .inl (hharmless ha hmem)
    have hdown : (⟨.run argv ports, result⟩ : Event Answer) = ⟨.run target.down ports', result'⟩ →
        pre = before ++ ⟨.load, .json (.object manifest)⟩ :: a →
          ∃ target : ComposeTarget h, argv = target.down ∧ Guarded h target pre := by
      intro heq hpre
      refine ⟨target, (Operation.run.inj (congrArg Sigma.fst heq)).1, manifest, a, ⟨before, hpre⟩,
        fun event hevent hload ↦ ?_, hchecked⟩
      have hop := ha event hevent
      rw [hload] at hop
      exact hop
    have hsplit' : pre ++ ⟨.run argv ports, result⟩ :: post =
        (before ++ ⟨.load, .json (.object manifest)⟩ :: a) ++ ⟨.run target.down ports', result'⟩ :: b := by
      rw [← hsplit, List.append_assoc]
      rfl
    rcases List.append_eq_append_iff.mp hsplit' with ⟨u, hu, hpost⟩ | ⟨u, hpre, hu⟩
    · cases u with
      | nil =>
        rw [List.append_nil] at hu
        exact .inr (.inr (hdown (List.cons.inj hpost).1 hu.symm))
      | cons event u =>
        obtain ⟨rfl, -⟩ := List.cons.inj hpost
        exact (hearlier (hu ▸ List.mem_append_right _ List.mem_cons_self)).imp_right .inl
    · cases u with
      | nil =>
        rw [List.append_nil] at hpre
        exact .inr (.inr (hdown (List.cons.inj hu).1.symm hpre))
      | cons event u =>
        obtain ⟨-, rfl⟩ := List.cons.inj hu
        exact .inl (hharmless hb (List.mem_append_right _ List.mem_cons_self))

theorem commandsSafe_start {name : Str} {ports : ℤ × ℤ} {webHost webUrl : Str} {t : List (Event Answer)}
    {x : Except Failure Fields} (hrun : Runs (start h name ports webHost webUrl) t x) :
    CommandsSafe h (some name) t := by
  obtain ⟨a, s, rfl, ha, hs⟩ := endsWithStop_start name ports webHost webUrl t x hrun
  have hstarting : ∀ event ∈ a, ∀ argv ports, event.1 = .run argv ports → IsDocker argv →
      ReadOnly h argv ∨ ∃ target : ComposeTarget h, some target.project = some name ∧ argv = target.up := by
    intro event hevent argv ports heq hdocker
    have hop := ha event hevent
    rw [heq] at hop
    exact (hop hdocker).imp_right fun ⟨target, hname, hup⟩ ↦ ⟨target, congrArg some hname, hup⟩
  rcases hs with rfl | ⟨y, hstop⟩
  · intro pre argv ports' result post hsplit hdocker
    rw [List.append_nil] at hsplit
    exact (hstarting _ (hsplit ▸ List.mem_append_right _ List.mem_cons_self) argv ports' rfl
      hdocker).imp_right .inl
  · exact safe_stop (some name) hstop a hstarting

/-- What the lifecycle does to Docker in a trace. -/
structure SafeTrace (h : Host) (name : Option Str) (t : List (Event Answer)) : Prop where
  /-- The commands are read-only, the `up` of the project of a start, or `down`. -/
  commands : ∀ argv ports result, ⟨.run argv ports, result⟩ ∈ t → IsDocker argv → ReadOnly h argv ∨
    (∃ target : ComposeTarget h, some target.project = name ∧ argv = target.up) ∨
      ∃ target : ComposeTarget h, argv = target.down
  /-- Each `down` is for a project of the pattern that is not the protected one, and guarded. -/
  teardown : ∀ (target : ComposeTarget h) pre ports result post,
    t = pre ++ ⟨.run target.down ports, result⟩ :: post →
      IsProject h target.project ∧ target.project ≠ protectedProject ∧ Guarded h target pre

theorem safeTrace_of_commands {name : Option Str} {t : List (Event Answer)} (ht : CommandsSafe h name t) :
    SafeTrace h name t := by
  constructor
  · intro argv ports result hmem hdocker
    obtain ⟨pre, post, hsplit⟩ := List.append_of_mem hmem
    refine (ht pre argv ports result post hsplit hdocker).imp_right ?_
    exact Or.imp_right fun ⟨target, hargv, _⟩ ↦ ⟨target, hargv⟩
  · intro target pre ports result post hsplit
    refine ⟨target.isProject, target.unprotected, ?_⟩
    rcases ht pre _ ports result post hsplit rfl with hread | ⟨target', -, hup⟩ | ⟨target', hdown, hguarded⟩
    · exact absurd hread (not_readOnly_down target)
    · exact absurd hup.symm (up_ne_down target' target)
    · exact down_injective hdown ▸ hguarded

end Compose

open Compose in
/-- **Teardown is safe.** In every run of `stop`, and of `start`, for any manifest and any answers of the
runner. -/
theorem teardown_safe (h : Host) :
    (∀ t x, Runs (stop h) t x → SafeTrace h none t) ∧
      ∀ name ports webHost webUrl t x, Runs (start h name ports webHost webUrl) t x →
        SafeTrace h (some name) t := by
  refine ⟨fun t x hrun ↦ ?_, fun name ports webHost webUrl t x hrun ↦
    safeTrace_of_commands (commandsSafe_start hrun)⟩
  have hsafe := safe_stop none hrun [] fun _ hmem ↦ absurd hmem List.not_mem_nil
  exact safeTrace_of_commands hsafe

end MeetingRag
