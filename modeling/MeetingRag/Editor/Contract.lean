import MeetingRag.Editor.RagTags

/-!
# What the editor sends and what the server takes

The save request of the merged document bounds the blocks and their texts, and strips the texts before it
does. The editor checks none of this. A typed text and an accepted suggestion keep a document that can be
saved so exactly when the new text is within the bounds, the block that is removed is not the last one, and
the block that is inserted is not one too many (`Keeps`).
-/

open Text

namespace MeetingRag

/-! ## The contract -/

/-- White space for `str_strip_whitespace`. -/
def isWireSpace (c : Char) : Bool :=
  c.toNat ∈ [9, 10, 11, 12, 13, 32, 0x85, 0xA0, 0x1680, 0x2028, 0x2029, 0x202F, 0x205F, 0x3000] ∨
    (0x2000 ≤ c.toNat ∧ c.toNat ≤ 0x200A)

/-- The characters of a field after `str_strip_whitespace`. -/
def wireStripped (s : List Char) : List Char := (s.dropWhile isWireSpace).rdropWhile isWireSpace

/-- `min_length=1, max_length=most`. -/
def FitsField (most : ℕ) (s : List Char) : Prop :=
  1 ≤ (wireStripped s).length ∧ (wireStripped s).length ≤ most

instance (most : ℕ) (s : List Char) : Decidable (FitsField most s) :=
  inferInstanceAs (Decidable (_ ∧ _))

/-- `max_length` of the text of a block. -/
def MergedDocumentBlock.maxText : MergedDocumentBlock → ℕ
  | heading .. => 2000
  | paragraph .. => maxMergedParagraphLength

def MergedDocumentBlock.tag : MergedDocumentBlock → Option String
  | heading _ _ _ tag => tag
  | paragraph _ _ tag => tag

/-- `MergedDocumentHeadingBlockWire` and `MergedDocumentParagraphBlockWire`. -/
def SaveableBlock (block : MergedDocumentBlock) : Prop :=
  FitsField 64 block.id.toList ∧ FitsField block.maxText block.text.toList ∧
    ∀ tag ∈ block.tag, (wireStripped tag.toList).length ≤ 1000

instance (block : MergedDocumentBlock) : Decidable (SaveableBlock block) :=
  inferInstanceAs (Decidable (_ ∧ _ ∧ ∀ tag ∈ block.tag, _))

/-- The blocks of `MergedDocumentSaveRequest`, and of `MergedDocumentResponse`. -/
def Saveable (blocks : List MergedDocumentBlock) : Prop :=
  (1 ≤ blocks.length ∧ blocks.length ≤ maxMergedDocumentBlocks) ∧ ∀ block ∈ blocks, SaveableBlock block

instance (blocks : List MergedDocumentBlock) : Decidable (Saveable blocks) :=
  inferInstanceAs (Decidable (_ ∧ ∀ block ∈ blocks, _))

/-! ## The editor -/

/-- What the user does to the document. -/
inductive EditorAction
  | input (blockId visibleText : String)
  | accept (suggestion : AiSuggestion)
deriving DecidableEq

variable (toLowerCase : String → String)

/-- `blocksById.get`: the last block of an id counts. -/
def blocksById (blocks : List MergedDocumentBlock) (blockId : String) : Option MergedDocumentBlock :=
  blocks.reverse.find? (·.id = blockId)

/-- `handleInput` for a block that the caret is in, and the part of `applySuggestion` that changes the blocks. -/
def act (blocks : List MergedDocumentBlock) : EditorAction → List MergedDocumentBlock
  | .input blockId visibleText =>
    match blocksById blocks blockId with
    | none => blocks
    | some block => changeText blockId (inputText block.text visibleText) blocks
  | .accept suggestion => (applySuggestionToBlocks toLowerCase blocks suggestion).getD blocks

/-- A typed text is within the bounds of a block that has `anchors` tags, each of which is written with a
space before it. -/
def InputFits (most anchors : ℕ) (visibleText : List Char) : Prop :=
  let typed := visibleText.rdropWhile isScriptSpace
  if anchors = 0 then FitsField most typed
  -- The space before the first tag is stripped with the blank text.
  else if typed.dropWhile isWireSpace = [] then 43 * anchors ≤ most + 1
  else (typed.dropWhile isWireSpace).length + 43 * anchors ≤ most

instance (most anchors : ℕ) (visibleText : List Char) : Decidable (InputFits most anchors visibleText) := by
  unfold InputFits
  infer_instance

/-- An action keeps a document that can be saved. -/
def Keeps (blocks : List MergedDocumentBlock) : EditorAction → Prop
  | .input blockId visibleText => ∀ last ∈ blocksById blocks blockId, ∀ block ∈ blocks, block.id = blockId →
      InputFits block.maxText (extractRagAnchorIds last.text).length visibleText.toList
  | .accept suggestion =>
    match suggestion.kind with
    | .add =>
      let visibleText := trimScript (visibleSuggestionText suggestion.detail)
      visibleText = "" ∨ (∃ block ∈ blocks, trimScript (visibleSuggestionText block.text) = visibleText) ∨
        (blocks.length < maxMergedDocumentBlocks ∧ FitsField 64 ("ai-" ++ suggestion.id).toList ∧
          FitsField maxMergedParagraphLength (suggestedBlockText suggestion).toList)
    | .remove => findSuggestionTargetIndex toLowerCase blocks suggestion = none ∨ 2 ≤ blocks.length
    | .edit => ∀ i ∈ findSuggestionTargetIndex toLowerCase blocks suggestion, ∀ block ∈ blocks[i]?,
        FitsField block.maxText (suggestedBlockText suggestion).toList

/-- The same anchors are cited, whatever their order. -/
def SameAnchors (text text' : String) : Prop :=
  ∀ id, id ∈ extractRagAnchorIds text ↔ id ∈ extractRagAnchorIds text'

/-- A typed text shows as it is typed and leaves the anchors: it ends in no white space, which is trimmed, and
no two blocks of one id cite different anchors. -/
def KeepsShown (blocks : List MergedDocumentBlock) : EditorAction → Prop
  | .input blockId visibleText => extractRagAnchorIds visibleText = [] → ∀ last ∈ blocksById blocks blockId,
      trimEnd visibleText = visibleText ∧
        ∀ block ∈ blocks, block.id = blockId → SameAnchors last.text block.text
  | .accept _ => True

/-- Every action of a run keeps what it finds. -/
def AllKeep (blocks : List MergedDocumentBlock) : List EditorAction → Prop
  | [] => True
  | action :: rest => (Keeps toLowerCase blocks action ∧ KeepsShown blocks action) ∧
      AllKeep (act toLowerCase blocks action) rest

/-- An action that types a text without tags leaves the anchors of the block it is typed in, and the block shows
what is typed. -/
def ShowsTyped (blocks : List MergedDocumentBlock) : EditorAction → Prop
  | .input blockId visibleText => extractRagAnchorIds visibleText = [] →
      ∀ (i : ℕ), ∀ block ∈ blocks[i]?, block.id = blockId →
        ∃ after ∈ (act toLowerCase blocks (.input blockId visibleText))[i]?,
          SameAnchors after.text block.text ∧ visibleBlockText after.text = visibleText
  | .accept _ => True

/-- The document after some actions. -/
def editedBy (blocks : List MergedDocumentBlock) (actions : List EditorAction) : List MergedDocumentBlock :=
  actions.foldl (act toLowerCase) blocks

/-! ## Texts within the bounds -/

theorem length_ragTag {id : String} (h : IsAnchorId id) : (ragTag id).length = 42 := by
  rw [ragTag, List.length_append, List.length_append, h.1]
  rfl

theorem length_spacedTags {ids : List String} (h : ∀ id ∈ ids, IsAnchorId id) :
    (spacedTags ids).length = 43 * ids.length := by
  induction ids with
  | nil => rfl
  | cons id ids ih =>
    rw [List.forall_mem_cons] at h
    have hcons : spacedTags (id :: ids) = ' ' :: (ragTag id ++ spacedTags ids) := rfl
    rw [hcons, List.length_cons, List.length_append, length_ragTag h.1, ih h.2, List.length_cons]
    omega

theorem exists_spacedTags_concat {ids : List String} (hne : ids ≠ []) :
    ∃ front, spacedTags ids = front ++ [']'] := by
  induction ids with
  | nil => exact absurd rfl hne
  | cons id ids ih =>
    have hcons : spacedTags (id :: ids) = ' ' :: ragTag id ++ spacedTags ids := rfl
    by_cases hids : ids = []
    · subst hids
      exact ⟨' ' :: ("[RAG:".toList ++ id.toList), by rw [hcons]; simp [spacedTags, ragTag]⟩
    · obtain ⟨front, hfront⟩ := ih hids
      exact ⟨' ' :: ragTag id ++ front, by rw [hcons, hfront, List.append_assoc]⟩

/-- Tags at the end of a text are not stripped, but for the space before the first of them. -/
theorem length_wireStripped_tags (typed : List Char) {ids : List String} (hne : ids ≠ [])
    (h : ∀ id ∈ ids, IsAnchorId id) : (wireStripped (typed ++ spacedTags ids)).length =
      if typed.dropWhile isWireSpace = [] then 43 * ids.length - 1
      else (typed.dropWhile isWireSpace).length + 43 * ids.length := by
  obtain ⟨front, hfront⟩ := exists_spacedTags_concat hne
  have hclosing : ¬isWireSpace ']' = true := by decide
  have hlength := length_spacedTags h
  rw [wireStripped, List.dropWhile_append]
  by_cases hblank : typed.dropWhile isWireSpace = []
  -- Only the tags are left, and the space before the first of them goes.
  · obtain ⟨id, rest, rfl⟩ := List.exists_cons_of_ne_nil hne
    have htags : (spacedTags (id :: rest)).dropWhile isWireSpace = ragTag id ++ spacedTags rest := by
      have hspace : isWireSpace ' ' = true := by decide
      have hopen : ¬isWireSpace '[' = true := by decide
      have hcons : spacedTags (id :: rest) =
          ' ' :: '[' :: (("RAG:".toList ++ id.toList ++ [']']) ++ spacedTags rest) := rfl
      rw [hcons, List.dropWhile_cons_of_pos hspace, List.dropWhile_cons_of_neg hopen]
      rfl
    have hsplit : spacedTags (id :: rest) = ' ' :: (ragTag id ++ spacedTags rest) := rfl
    rw [hblank, List.isEmpty_nil, if_pos rfl, if_pos rfl, htags]
    rw [hsplit, List.length_cons] at hlength
    cases front with
    | nil =>
      rw [hsplit] at hfront
      exact absurd (List.cons.inj hfront).1 (by decide)
    | cons c front =>
      rw [hsplit] at hfront
      have htail : ragTag id ++ spacedTags rest = front ++ [']'] := (List.cons.inj hfront).2
      rw [htail, List.rdropWhile_concat_neg _ _ _ hclosing, ← htail]
      omega
  · have hempty : (typed.dropWhile isWireSpace).isEmpty = false := by simpa using hblank
    rw [hempty, if_neg (by simp), if_neg hblank, hfront, ← List.append_assoc,
      List.rdropWhile_concat_neg _ _ _ hclosing, List.append_assoc, ← hfront, List.length_append, hlength]

/-- **The text of a typed block is within its bounds** exactly when what is typed leaves room for the tags. -/
theorem fitsField_inputText (most : ℕ) (text visibleText : String) :
    FitsField most (inputText text visibleText).toList ↔
      InputFits most (extractRagAnchorIds text).length visibleText.toList := by
  have hanchors : ∀ id ∈ extractRagAnchorIds text, IsAnchorId id :=
    fun id hmem ↦ isAnchorId_of_mem (mem_of_mem_distinctIds hmem)
  rw [toList_inputText, InputFits]
  by_cases hnone : extractRagAnchorIds text = []
  · rw [hnone, List.length_nil, if_pos rfl, spacedTags, List.flatMap_nil, List.append_nil]
  · have hpos : 1 ≤ (extractRagAnchorIds text).length := List.length_pos_iff.mpr hnone
    have hlength := length_wireStripped_tags (visibleText.toList.rdropWhile isScriptSpace) hnone hanchors
    rw [if_neg (by omega), FitsField, hlength]
    split <;> omega

/-! ## One action -/

@[simp] theorem id_setText (block : MergedDocumentBlock) (text : String) : (block.setText text).id = block.id := by
  cases block <;> rfl

@[simp] theorem text_setText (block : MergedDocumentBlock) (text : String) :
    (block.setText text).text = text := by
  cases block <;> rfl

@[simp] theorem maxText_setText (block : MergedDocumentBlock) (text : String) :
    (block.setText text).maxText = block.maxText := by
  cases block <;> rfl

@[simp] theorem tag_setText (block : MergedDocumentBlock) (text : String) :
    (block.setText text).tag = block.tag := by
  cases block <;> rfl

variable {toLowerCase} {blocks : List MergedDocumentBlock}

/-- A block with another text is within the bounds when the text is. -/
theorem saveableBlock_setText {block : MergedDocumentBlock} (h : SaveableBlock block) (text : String) :
    SaveableBlock (block.setText text) ↔ FitsField block.maxText text.toList := by
  rw [SaveableBlock, id_setText, text_setText, maxText_setText, tag_setText]
  exact ⟨fun hset ↦ hset.2.1, fun hfits ↦ ⟨h.1, hfits, h.2.2⟩⟩

theorem saveable_input (h : Saveable blocks) (blockId visibleText : String) :
    Saveable (act toLowerCase blocks (.input blockId visibleText)) ↔
      Keeps toLowerCase blocks (.input blockId visibleText) := by
  rw [act, Keeps]
  cases hlast : blocksById blocks blockId with
  | none => exact iff_of_true h fun last hmem ↦ nomatch hmem
  | some last =>
    dsimp only
    rw [Saveable, changeText, List.length_map, List.forall_mem_map, and_iff_right h.1]
    simp only [Option.mem_some_iff, forall_eq', ← fitsField_inputText]
    refine forall₂_congr fun block hmem ↦ ?_
    by_cases hid : block.id = blockId
    · rw [if_pos hid, saveableBlock_setText (h.2 block hmem), forall_prop_of_true hid]
    · rw [if_neg hid]
      exact iff_of_true (h.2 block hmem) fun heq ↦ absurd heq hid

/-- The paragraph of an accepted insertion. -/
theorem saveableBlock_inserted (suggestion : AiSuggestion) :
    SaveableBlock (.paragraph ("ai-" ++ suggestion.id) (suggestedBlockText suggestion) (some "AI 추천 반영")) ↔
      FitsField 64 ("ai-" ++ suggestion.id).toList ∧
        FitsField maxMergedParagraphLength (suggestedBlockText suggestion).toList := by
  have htag : (wireStripped "AI 추천 반영".toList).length ≤ 1000 := by decide
  refine and_congr_right fun _ ↦ ?_
  refine ⟨fun hset ↦ hset.1, fun hfits ↦ ⟨hfits, fun tag hmem ↦ ?_⟩⟩
  rw [← Option.mem_some_iff.mp hmem]
  exact htag

theorem saveable_insert (h : Saveable blocks) (k : ℕ) (block : MergedDocumentBlock) :
    Saveable (blocks.take k ++ [block] ++ blocks.drop k) ↔
      blocks.length < maxMergedDocumentBlocks ∧ SaveableBlock block := by
  have hlength : (blocks.take k ++ [block] ++ blocks.drop k).length = blocks.length + 1 := by
    have hsplit := congrArg List.length (List.take_append_drop k blocks)
    rw [List.length_append] at hsplit
    rw [List.length_append, List.length_append, List.length_singleton]
    omega
  have hmem : ∀ b, b ∈ blocks.take k ++ [block] ++ blocks.drop k ↔ b = block ∨ b ∈ blocks := by
    intro b
    conv_rhs => rw [← List.take_append_drop k blocks]
    simp only [List.mem_append, List.mem_singleton]
    tauto
  rw [Saveable, hlength]
  simp only [hmem, forall_eq_or_imp]
  constructor
  · rintro ⟨⟨_, hmost⟩, hblock, _⟩
    exact ⟨hmost, hblock⟩
  · rintro ⟨hmost, hblock⟩
    exact ⟨⟨by omega, hmost⟩, hblock, h.2⟩

theorem saveable_add (h : Saveable blocks) {suggestion : AiSuggestion} (hkind : suggestion.kind = .add) :
    Saveable (act toLowerCase blocks (.accept suggestion)) ↔ Keeps toLowerCase blocks (.accept suggestion) := by
  rw [act, Keeps, applySuggestionToBlocks, hkind]
  dsimp only
  by_cases hshown : trimScript (visibleSuggestionText suggestion.detail) = "" ∨ ∃ block ∈ blocks,
      trimScript (visibleSuggestionText block.text) = trimScript (visibleSuggestionText suggestion.detail)
  · rw [if_pos hshown]
    exact iff_of_true h (hshown.imp_right .inl)
  · rw [if_neg hshown, Option.getD_some, saveable_insert h, saveableBlock_inserted]
    rw [not_or] at hshown
    rw [or_iff_right hshown.1, or_iff_right hshown.2]

/-- A target is a place of the document, unless it is where a new paragraph goes. -/
theorem findSuggestionTargetIndex_lt {suggestion : AiSuggestion} (hkind : suggestion.kind ≠ .add) {i : ℕ}
    (hi : findSuggestionTargetIndex toLowerCase blocks suggestion = some i) : i < blocks.length := by
  have hfound : ∀ (p : MergedDocumentBlock → Bool), blocks.findIdx? p = some i → i < blocks.length :=
    fun p hp ↦ (List.findIdx?_eq_some_iff_getElem.mp hp).1
  rw [findSuggestionTargetIndex, if_neg hkind] at hi
  simp only [Option.orElse_eq_some, Option.bind_eq_some_iff, reduceCtorEq, and_false, or_false] at hi
  rcases hi with ⟨target, -, hp⟩ | ⟨-, hp | ⟨-, anchor, -, hp⟩⟩
  all_goals exact hfound _ hp

/-- What a removal does. -/
theorem applySuggestionToBlocks_remove {suggestion : AiSuggestion} (hkind : suggestion.kind = .remove) :
    applySuggestionToBlocks toLowerCase blocks suggestion =
      (findSuggestionTargetIndex toLowerCase blocks suggestion).map blocks.eraseIdx := by
  rw [applySuggestionToBlocks, hkind]
  dsimp only
  cases htarget : findSuggestionTargetIndex toLowerCase blocks suggestion with
  | none => rfl
  | some i =>
    have hi := findSuggestionTargetIndex_lt (by rw [hkind]; decide) htarget
    simp only [Option.bind_eq_bind, Option.bind_some, List.getElem?_eq_getElem hi, Option.map_some]

/-- What an edit does. -/
theorem applySuggestionToBlocks_edit {suggestion : AiSuggestion} (hkind : suggestion.kind = .edit) :
    applySuggestionToBlocks toLowerCase blocks suggestion =
      (findSuggestionTargetIndex toLowerCase blocks suggestion).map
        fun i ↦ blocks.modify i (·.setText (suggestedBlockText suggestion)) := by
  rw [applySuggestionToBlocks, hkind]
  dsimp only
  cases htarget : findSuggestionTargetIndex toLowerCase blocks suggestion with
  | none => rfl
  | some i =>
    have hi := findSuggestionTargetIndex_lt (by rw [hkind]; decide) htarget
    simp only [Option.bind_eq_bind, Option.bind_some, List.getElem?_eq_getElem hi, Option.map_some]

theorem saveable_remove (h : Saveable blocks) {suggestion : AiSuggestion} (hkind : suggestion.kind = .remove) :
    Saveable (act toLowerCase blocks (.accept suggestion)) ↔ Keeps toLowerCase blocks (.accept suggestion) := by
  rw [act, Keeps, applySuggestionToBlocks_remove hkind, hkind]
  dsimp only
  cases htarget : findSuggestionTargetIndex toLowerCase blocks suggestion with
  | none => exact iff_of_true h (.inl rfl)
  | some i =>
    have hi := findSuggestionTargetIndex_lt (by rw [hkind]; decide) htarget
    have hpos := h.1
    rw [Option.map_some, Option.getD_some, Saveable, List.length_eraseIdx_of_lt hi,
      or_iff_right (Option.some_ne_none i)]
    exact ⟨fun hsave ↦ by have := hsave.1.1; omega,
      fun htwo ↦ ⟨by omega, fun block hmem ↦ h.2 block (List.mem_of_mem_eraseIdx hmem)⟩⟩

theorem saveable_modify (h : Saveable blocks) {i : ℕ} (hi : i < blocks.length) (text : String) :
    Saveable (blocks.modify i (·.setText text)) ↔ FitsField (blocks[i]).maxText text.toList := by
  rw [Saveable, List.length_modify, and_iff_right h.1]
  constructor
  · intro hall
    have hchanged := hall (blocks[i].setText text) (List.mem_iff_getElem.mpr
      ⟨i, by rw [List.length_modify]; exact hi, by rw [List.getElem_modify, if_pos rfl]⟩)
    exact (saveableBlock_setText (h.2 _ (List.getElem_mem hi)) text).mp hchanged
  · intro hfits block hmem
    obtain ⟨k, hk, rfl⟩ := List.getElem_of_mem hmem
    rw [List.length_modify] at hk
    rw [List.getElem_modify]
    split
    · rename_i hik
      subst hik
      exact (saveableBlock_setText (h.2 _ (List.getElem_mem hi)) text).mpr hfits
    · exact h.2 _ (List.getElem_mem hk)

theorem saveable_edit (h : Saveable blocks) {suggestion : AiSuggestion} (hkind : suggestion.kind = .edit) :
    Saveable (act toLowerCase blocks (.accept suggestion)) ↔ Keeps toLowerCase blocks (.accept suggestion) := by
  rw [act, Keeps, applySuggestionToBlocks_edit hkind, hkind]
  dsimp only
  cases htarget : findSuggestionTargetIndex toLowerCase blocks suggestion with
  | none => exact iff_of_true h fun i hmem ↦ nomatch hmem
  | some i =>
    have hi := findSuggestionTargetIndex_lt (by rw [hkind]; decide) htarget
    rw [Option.map_some, Option.getD_some, saveable_modify h hi]
    simp only [Option.mem_some_iff, forall_eq', List.getElem?_eq_getElem hi]

/-- **An action leaves a document that can be saved exactly when it keeps one.** -/
theorem saveable_act (h : Saveable blocks) (action : EditorAction) :
    Saveable (act toLowerCase blocks action) ↔ Keeps toLowerCase blocks action := by
  match action with
  | .input blockId visibleText => exact saveable_input h blockId visibleText
  | .accept suggestion =>
    cases hkind : suggestion.kind with
    | add => exact saveable_add h hkind
    | remove => exact saveable_remove h hkind
    | edit => exact saveable_edit h hkind

/-- The last block of an id is one of the blocks that have it. -/
theorem blocksById_mem {blockId : String} {last : MergedDocumentBlock} (h : blocksById blocks blockId = some last) :
    last ∈ blocks ∧ last.id = blockId := by
  rw [blocksById] at h
  exact ⟨List.mem_reverse.mp (List.mem_of_find?_eq_some h), by simpa using List.find?_some h⟩

theorem blocksById_of_mem {block : MergedDocumentBlock} (hmem : block ∈ blocks) :
    ∃ last, blocksById blocks block.id = some last := by
  refine Option.isSome_iff_exists.mp ?_
  rw [blocksById, List.find?_isSome]
  exact ⟨block, List.mem_reverse.mpr hmem, by simp⟩

/-- **A typed text is shown as it is typed exactly when it ends in no white space.** -/
theorem showsTyped_iff (action : EditorAction) :
    ShowsTyped toLowerCase blocks action ↔ KeepsShown blocks action := by
  match action with
  | .accept _ => exact Iff.rfl
  | .input blockId visibleText =>
    refine forall_congr' fun hplain ↦ ?_
    have hafter : ∀ {last : MergedDocumentBlock}, blocksById blocks blockId = some last →
        ∀ {i : ℕ} {block : MergedDocumentBlock}, blocks[i]? = some block → block.id = blockId →
        (act toLowerCase blocks (.input blockId visibleText))[i]? =
          some (block.setText (inputText last.text visibleText)) := by
      intro last hlast i block hi hid
      rw [act, hlast]
      dsimp only
      rw [changeText, List.getElem?_map, hi, Option.map_some, if_pos hid]
    constructor
    · intro hshows last hlast
      obtain ⟨hmem, hid⟩ := blocksById_mem hlast
      have heach : ∀ block ∈ blocks, block.id = blockId →
          SameAnchors last.text block.text ∧ trimEnd visibleText = visibleText := by
        intro block hblock hblockId
        obtain ⟨i, hi⟩ := List.mem_iff_getElem?.mp hblock
        obtain ⟨after, hget, hsame, hshown⟩ := hshows i block hi hblockId
        obtain rfl := Option.some.inj ((hafter hlast hi hblockId).symm.trans hget)
        rw [text_setText] at hsame hshown
        obtain ⟨hanchors, hvisible⟩ := @inputText_keeps last.text visibleText hplain
        exact ⟨fun id ↦ by rw [← hsame id, hanchors], hvisible.symm.trans hshown⟩
      exact ⟨(heach last hmem hid).2, fun block hblock hblockId ↦ (heach block hblock hblockId).1⟩
    · intro hkeeps i block hi hid
      obtain ⟨last, hlast⟩ := blocksById_of_mem (List.mem_of_getElem? hi)
      rw [hid] at hlast
      obtain ⟨htrim, hsame⟩ := hkeeps last hlast
      obtain ⟨hanchors, hvisible⟩ := @inputText_keeps last.text visibleText hplain
      refine ⟨_, hafter hlast hi hid, ?_, ?_⟩
      · intro id
        rw [text_setText, hanchors]
        exact hsame block (List.mem_of_getElem? hi) hid id
      · rw [text_setText]
        exact hvisible.trans htrim

/-! ## Runs of the editor -/

theorem edited_cons (action : EditorAction) (actions : List EditorAction) :
    editedBy toLowerCase blocks (action :: actions) = editedBy toLowerCase (act toLowerCase blocks action) actions :=
  rfl

/-- The document of the server can be saved as the editor has it, without the tags that are blank. -/
theorem Saveable.blockFromBackend {server : List MergedDocumentBlock} (h : Saveable server) :
    Saveable (server.map blockFromBackend) := by
  rw [Saveable, List.length_map, List.forall_mem_map]
  refine ⟨h.1, fun block hmem ↦ ?_⟩
  obtain ⟨hid, htext, htag⟩ := h.2 block hmem
  cases block with
  | heading id level text tag =>
    exact ⟨hid, htext, fun kept hkept ↦ htag kept (Option.eq_some_of_filter_eq_some hkept)⟩
  | paragraph id text tag =>
    exact ⟨hid, htext, fun kept hkept ↦ htag kept (Option.eq_some_of_filter_eq_some hkept)⟩

/-- Over a run that starts from a document that can be saved. -/
theorem edited_iff (h : Saveable blocks) (actions : List EditorAction) :
    ((∀ done, done <+: actions → Saveable (editedBy toLowerCase blocks done)) ∧
      ∀ done action, done ++ [action] <+: actions → ShowsTyped toLowerCase (editedBy toLowerCase blocks done) action) ↔
    AllKeep toLowerCase blocks actions := by
  induction actions generalizing blocks with
  | nil =>
    refine iff_of_true ⟨fun done hdone ↦ ?_, fun done action hdone ↦ ?_⟩ trivial
    · obtain rfl := List.prefix_nil.mp hdone
      exact h
    · exact absurd (List.prefix_nil.mp hdone) (by simp)
  | cons action rest ih =>
    -- What a run says of its first action is said of the document it starts from, the rest of what is left.
    constructor
    · rintro ⟨hsave, hshow⟩
      have hfirst : Saveable (act toLowerCase blocks action) := hsave [action] ⟨rest, rfl⟩
      have htyped : ShowsTyped toLowerCase blocks action := hshow [] action ⟨rest, rfl⟩
      refine ⟨⟨(saveable_act h action).mp hfirst, (showsTyped_iff action).mp htyped⟩, (ih hfirst).mp ⟨?_, ?_⟩⟩
      · intro done hdone
        exact hsave (action :: done) (List.cons_prefix_cons.mpr ⟨rfl, hdone⟩)
      · intro done next hdone
        exact hshow (action :: done) next (List.cons_prefix_cons.mpr ⟨rfl, hdone⟩)
    · rintro ⟨⟨hkeeps, hshown⟩, hrest⟩
      obtain ⟨hsave, hshow⟩ := (ih ((saveable_act h action).mpr hkeeps)).mpr hrest
      constructor
      · intro done hdone
        cases done with
        | nil => exact h
        | cons next done =>
          obtain ⟨rfl, hprefix⟩ := List.cons_prefix_cons.mp hdone
          exact hsave done hprefix
      · intro done next hdone
        cases done with
        | nil =>
          obtain ⟨rfl, -⟩ := List.cons_prefix_cons.mp hdone
          exact (showsTyped_iff next).mpr hshown
        | cons head done =>
          obtain ⟨rfl, hprefix⟩ := List.cons_prefix_cons.mp hdone
          exact hshow done next hprefix

/-- **Every document of a run can be saved and shows what is typed**, for every document of the server and every
run, exactly when each action of the run keeps what it finds. -/
theorem edited_contract_iff (toLowerCase : String → String) (server : List MergedDocumentBlock)
    (h : Saveable server) (actions : List EditorAction) :
    ((∀ done, done <+: actions → Saveable (editedBy toLowerCase (server.map blockFromBackend) done)) ∧
      ∀ done action, done ++ [action] <+: actions →
        ShowsTyped toLowerCase (editedBy toLowerCase (server.map blockFromBackend) done) action) ↔
    AllKeep toLowerCase (server.map blockFromBackend) actions :=
  edited_iff h.blockFromBackend actions

/-- A paragraph is typed over. -/
theorem edited_contract_retyped :
    (∀ done, done <+: [.input "b" "new"] →
        Saveable (editedBy String.toLower ([.paragraph "b" "old" none].map blockFromBackend) done)) ∧
      ∀ done action, done ++ [action] <+: [.input "b" "new"] →
        ShowsTyped String.toLower (editedBy String.toLower ([.paragraph "b" "old" none].map blockFromBackend) done)
          action := by
  have hlast : blocksById ([.paragraph "b" "old" none].map blockFromBackend) "b" =
      some (.paragraph "b" "old" none) := by decide
  refine (edited_contract_iff String.toLower [.paragraph "b" "old" none] (by decide)
    [.input "b" "new"]).mpr ⟨⟨?_, ?_⟩, trivial⟩
  · intro last hmem block hblock _
    obtain rfl := Option.some.inj (hlast.symm.trans hmem)
    obtain rfl := List.mem_singleton.mp hblock
    decide
  · intro _ last hmem
    obtain rfl := Option.some.inj (hlast.symm.trans hmem)
    refine ⟨by decide, fun block hblock _ ↦ ?_⟩
    obtain rfl := List.mem_singleton.mp hblock
    exact fun id ↦ Iff.rfl

/-- A paragraph is emptied, and the request is refused. -/
theorem edited_contract_emptied :
    ¬∀ (server : List MergedDocumentBlock), Saveable server → ∀ (actions : List EditorAction),
      (∀ done, done <+: actions → Saveable (editedBy String.toLower (server.map blockFromBackend) done)) ∧
        ∀ done action, done ++ [action] <+: actions →
          ShowsTyped String.toLower (editedBy String.toLower (server.map blockFromBackend) done) action := by
  intro hall
  have hsave := (hall [.paragraph "b" "old" none] (by decide) [.input "b" ""]).1 _ (List.prefix_refl _)
  exact absurd hsave (by decide)

end MeetingRag
