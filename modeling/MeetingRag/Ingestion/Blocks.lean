import MeetingRag.Ingestion.Locators

/-!
# The loops of a validator

A validator goes through the blocks of a result with the hashes of the anchors and the characters seen
so far, and then through the warnings. What a loop establishes follows from what one step accepts, so
the rules here are about any step that accepts the blocks of the contract: `foldlM_blocks` for a loop
that returns, `raises_blocks` for one that raises.

A *trap* is a value at which Python raises something that is not a `ValueError`: an integer that no
`float` can hold where a number of the unit interval is expected, or a list or an object where a code
is looked up in a set. It springs only when the checks before it pass.
-/

open Outcome Py Json

namespace MeetingRag

variable {U : Nfc} (expected : Expected U)

/-! ## Blocks -/

/-- One step of the loop accepts what the contract calls a block and counts its characters. -/
def AcceptsBlocks (profile : Str) (step : List Str × ℤ → Json × ℕ → Except Exc (List Str × ℤ)) : Prop :=
  ∀ hashes total v ordinal s, step (hashes, total) (v, ordinal) = .ok s ↔
    ∃ block text hash, v = .object block ∧ IsBlock expected profile ordinal text hash block ∧
      total + text.length ≤ expected.bounds.maxTotalChars ∧ s = (hashes ++ [hash], total + text.length)

variable {expected} {profile : Str} {step : List Str × ℤ → Json × ℕ → Except Exc (List Str × ℤ)}

theorem totalChars_cons (text hash : Str) (rows : List (Str × Str)) :
    totalChars ((text, hash) :: rows) = text.length + totalChars rows := by
  rw [totalChars, List.map_cons, List.sum_cons, totalChars]

/-- **What the loop over the blocks accepts.** The bound on the characters holds at the end, since the
count only grows. -/
theorem foldlM_blocks (hstep : AcceptsBlocks expected profile step) {blocks : List Json} {n : ℕ}
    {hashes : List Str} {total : ℤ} {s : List Str × ℤ} :
    (blocks.zipIdx n).foldlM step (hashes, total) = .ok s ↔
      ∃ rows, AreBlocks expected profile n blocks rows ∧
        (blocks = [] ∨ total + totalChars rows ≤ expected.bounds.maxTotalChars) ∧
        s = (hashes ++ rows.map Prod.snd, total + totalChars rows) := by
  induction blocks generalizing n hashes total with
  | nil =>
    rw [List.zipIdx_nil, List.foldlM_nil, pure_eq_ok]
    constructor
    · rintro rfl
      exact ⟨[], List.Forall₂.nil, Or.inl rfl, by simp [totalChars]⟩
    · rintro ⟨rows, hrows, -, rfl⟩
      cases hrows
      simp [totalChars]
  | cons v blocks ih =>
    rw [List.zipIdx_cons, List.foldlM_cons, bind_eq_ok]
    simp only [AreBlocks, List.zipIdx_cons, List.forall₂_cons_left_iff]
    constructor
    · rintro ⟨t, ht, hrest⟩
      obtain ⟨block, text, hash, hv, hblock, hbound, rfl⟩ := (hstep _ _ _ _ _).mp ht
      obtain ⟨rows, hrows, htotal, rfl⟩ := ih.mp hrest
      have hnext : total + totalChars ((text, hash) :: rows) =
          total + text.length + totalChars rows := by
        rw [totalChars_cons]
        push_cast
        ring
      refine ⟨(text, hash) :: rows, ⟨(text, hash), rows, ⟨block, hv, hblock⟩, hrows, rfl⟩, Or.inr ?_, ?_⟩
      · rw [hnext]
        rcases htotal with rfl | htotal
        · cases hrows
          simpa [totalChars] using hbound
        · exact htotal
      · rw [hnext, List.map_cons, List.append_assoc, List.singleton_append]
    · rintro ⟨_, ⟨⟨text, hash⟩, rows, ⟨block, hv, hblock⟩, hrows, rfl⟩, htotal, rfl⟩
      have hnext : total + totalChars ((text, hash) :: rows) =
          total + text.length + totalChars rows := by
        rw [totalChars_cons]
        push_cast
        ring
      have hbound := htotal.resolve_left (List.cons_ne_nil _ _)
      rw [hnext] at hbound
      have hle : total + text.length ≤ expected.bounds.maxTotalChars := by omega
      have hfirst := (hstep hashes total v n _).mpr ⟨block, text, hash, hv, hblock, hle, rfl⟩
      refine ⟨_, hfirst, ih.mpr ⟨rows, hrows, Or.inr hbound, ?_⟩⟩
      rw [hnext, List.map_cons, List.append_assoc, List.singleton_append]

/-- A block after some others at which a validator raises: its confidence, or the box of its anchor.
`kinds` are the kinds of anchors whose locator the validator checks here. -/
def BlockTrap (expected : Expected U) (kinds : AnchorKind → Prop) (profile : Str) (before : ℤ)
    (ordinal : ℕ) (v : Json) : Prop :=
  ∃ block text, v = .object block ∧ BlockHead expected ordinal text block ∧
    before + text.length ≤ expected.bounds.maxTotalChars ∧
    (Overflows (get block "confidence") ∨
      IsConfidence (get block "confidence") ∧ ∃ anchor kind locator, kinds kind ∧
        get block "anchor" = .object anchor ∧ AnchorHead expected profile text (lit kind.value) anchor ∧
        get anchor "locator" = .object locator ∧ LocatorTrap U kind locator)

/-- **Where the loop over the blocks raises.** -/
theorem raises_blocks {kinds : AnchorKind → Prop} (hstep : AcceptsBlocks expected profile step)
    (htrap : ∀ hashes total v ordinal, Raises Exc.Uncaught (step (hashes, total) (v, ordinal)) ↔
      BlockTrap expected kinds profile total ordinal v) {blocks : List Json} :
    Raises Exc.Uncaught ((blocks.zipIdx).foldlM step ([], 0)) ↔
      ∃ pre v post rows, blocks = pre ++ v :: post ∧ AreBlocks expected profile 0 pre rows ∧
        BlockTrap expected kinds profile (totalChars rows) pre.length v := by
  rw [raises_foldlM]
  constructor
  · rintro ⟨before, ⟨v, i⟩, after, s, hsplit, hpre, hraises⟩
    obtain ⟨pre, rest, rfl, rfl, hrest⟩ := List.zipIdx_eq_append_iff.mp hsplit
    obtain ⟨w, post, rfl, hw, -⟩ := List.zipIdx_eq_cons_iff.mp hrest.symm
    obtain ⟨rfl, rfl⟩ := Prod.mk.inj hw
    obtain ⟨rows, hrows, -, rfl⟩ := (foldlM_blocks hstep).mp hpre
    have hblock := (htrap _ _ _ _).mp hraises
    rw [zero_add, zero_add] at hblock
    exact ⟨pre, v, post, rows, rfl, hrows, hblock⟩
  · rintro ⟨pre, v, post, rows, rfl, hrows, hblock⟩
    refine ⟨pre.zipIdx, (v, pre.length), post.zipIdx (pre.length + 1), _, ?_,
      (foldlM_blocks hstep).mpr ⟨rows, hrows, ?_, rfl⟩, ?_⟩
    · rw [List.zipIdx_append, List.zipIdx_cons, zero_add]
    · obtain ⟨block, text, -, -, hbound, -⟩ := hblock
      exact Or.inr (by omega)
    · rw [htrap, zero_add]
      exact hblock

/-! ## Warnings -/

/-- One step of the loop over the warnings accepts what the contract calls a warning. -/
def AcceptsWarnings (U : Nfc) (count : ℕ) (step : Json × ℕ → Except Exc Unit) : Prop :=
  ∀ w i, step (w, i) = .ok () ↔ IsWarning U count w

/-- A warning whose code no set can hold. -/
def WarningTrap (v : Json) : Prop :=
  ∃ warning, v = .object warning ∧ ExactKeys ["code", "message", "block_ordinal"] warning ∧
    (get warning "code").Unhashable

theorem forM_warnings {count : ℕ} {step : Json × ℕ → Except Exc Unit}
    (hstep : AcceptsWarnings U count step) {warnings : List Json} :
    (warnings.zipIdx).forM step = .ok () ↔ ∀ w ∈ warnings, IsWarning U count w := by
  rw [forM_eq_ok]
  constructor
  · intro h w hw
    obtain ⟨i, hi⟩ := List.mem_iff_getElem?.mp hw
    exact (hstep w i).mp (h (w, i) (List.mk_mem_zipIdx_iff_getElem?.mpr hi))
  · rintro h ⟨w, i⟩ hw
    exact (hstep w i).mpr (h w (List.fst_mem_of_mem_zipIdx hw))

theorem raises_warnings {count : ℕ} {step : Json × ℕ → Except Exc Unit}
    (hstep : AcceptsWarnings U count step)
    (htrap : ∀ w i, Raises Exc.Uncaught (step (w, i)) ↔ WarningTrap w) {warnings : List Json} :
    Raises Exc.Uncaught ((warnings.zipIdx).forM step) ↔
      ∃ pre w post, warnings = pre ++ w :: post ∧ (∀ y ∈ pre, IsWarning U count y) ∧ WarningTrap w := by
  rw [raises_forM]
  constructor
  · rintro ⟨before, ⟨w, i⟩, after, hsplit, hpre, hraises⟩
    obtain ⟨pre, rest, rfl, rfl, hrest⟩ := List.zipIdx_eq_append_iff.mp hsplit
    obtain ⟨w', post, rfl, hw, -⟩ := List.zipIdx_eq_cons_iff.mp hrest.symm
    obtain ⟨rfl, -⟩ := Prod.mk.inj hw
    exact ⟨pre, w, post, rfl, (forM_warnings hstep).mp (forM_eq_ok.mpr hpre), (htrap w i).mp hraises⟩
  · rintro ⟨pre, w, post, rfl, hpre, hw⟩
    refine ⟨pre.zipIdx, (w, pre.length), post.zipIdx (pre.length + 1), ?_,
      forM_eq_ok.mp ((forM_warnings hstep).mpr hpre), (htrap w _).mpr hw⟩
    rw [List.zipIdx_append, List.zipIdx_cons, zero_add]

/-! ## Results -/

/-- The value of a result at which a validator raises: a block, or a warning after all the blocks.
`anchors` is what the validator asks of the anchor hashes in between. -/
def ResultTrap (expected : Expected U) (kinds : AnchorKind → Prop) (anchors : List Str → Prop)
    (result : Fields) : Prop :=
  ∃ profile blocks, ResultHead expected profile blocks result ∧
    ((∃ pre v post rows, blocks = pre ++ v :: post ∧ AreBlocks expected profile 0 pre rows ∧
        BlockTrap expected kinds profile (totalChars rows) pre.length v) ∨
      ∃ rows hash warnings pre w post, AreBlocks expected profile 0 blocks rows ∧
        totalChars rows ≤ expected.bounds.maxTotalChars ∧ anchors (rows.map Prod.snd) ∧
        canonicalSha256 U "" (anchorSet (rows.map Prod.snd)) = .ok hash ∧
        get result "anchor_set_hash" = .str hash ∧ get result "warnings" = .array warnings ∧
        warnings = pre ++ w :: post ∧ (∀ y ∈ pre, IsWarning U blocks.length y) ∧ WarningTrap w)

/-- A success envelope at whose result a validator raises. -/
def SuccessTrap (expected : Expected U) (kinds : AnchorKind → Prop) (anchors : List Str → Prop)
    (payload : Fields) : Prop :=
  Header true payload ∧ ExactKeys ["schema_version", "ok", "result"] payload ∧
    ∃ result, get payload "result" = .object result ∧ ResultTrap expected kinds anchors result

/-- A failure envelope whose code no set can hold. -/
def ErrorTrap (payload : Fields) : Prop :=
  Header false payload ∧ ExactKeys ["schema_version", "ok", "error"] payload ∧
    ∃ error, get payload "error" = .object error ∧
      ExactKeys ["code", "message", "retryable"] error ∧ (get error "code").Unhashable

end MeetingRag
