import MeetingRag.Editor.Contract

/-!
# Suggestions that are accepted twice

When the document is saved and the suggestion is not resolved, the editor offers to accept it again. The second
application finds its target anew, in a document the first has changed and the user may have. It changes nothing
exactly when the suggestion is settled there (`SettledIn`): a removal, when no block has the pinned id, contains
the text or carries the tag any more.
-/

namespace MeetingRag

/-- The text of a suggestion, as it is looked for. -/
def soughtText (suggestion : AiSuggestion) : String := trimScript (visibleSuggestionText suggestion.detail)

/-- The text of a block, as it is compared. -/
def shownText (block : MergedDocumentBlock) : String := trimScript (visibleSuggestionText block.text)

section Found

variable (toLowerCase : String → String) (suggestion : AiSuggestion)

/-- The suggestion is pinned to the block. -/
def PinnedTo (block : MergedDocumentBlock) : Prop := ∃ target ∈ given suggestion.targetBlockId, block.id = target

instance (block : MergedDocumentBlock) : Decidable (PinnedTo suggestion block) :=
  inferInstanceAs (Decidable (∃ target ∈ given suggestion.targetBlockId, _))

/-- The block shows the text, or more than the text. -/
def RepeatsText (block : MergedDocumentBlock) : Prop := soughtText suggestion ≠ "" ∧
  (shownText block = soughtText suggestion ∨ Includes (shownText block) (soughtText suggestion))

instance (block : MergedDocumentBlock) : Decidable (RepeatsText suggestion block) :=
  inferInstanceAs (Decidable (_ ∧ _))

/-- The block carries the tag of the anchor. -/
def Tagged (block : MergedDocumentBlock) : Prop := ∃ anchor ∈ given suggestion.sourceAnchorId,
  Includes (toLowerCase block.text) ("[rag:" ++ toLowerCase anchor ++ "]")

instance (block : MergedDocumentBlock) : Decidable (Tagged toLowerCase suggestion block) :=
  inferInstanceAs (Decidable (∃ anchor ∈ given suggestion.sourceAnchorId, _))

/-- The block is one the suggestion can be about. -/
def Found (block : MergedDocumentBlock) : Prop :=
  PinnedTo suggestion block ∨ RepeatsText suggestion block ∨ Tagged toLowerCase suggestion block

instance (block : MergedDocumentBlock) : Decidable (Found toLowerCase suggestion block) :=
  inferInstanceAs (Decidable (_ ∨ _ ∨ _))

/-- The first block that is pinned, else the first that repeats the text, else the first that is tagged. -/
def firstFound (blocks : List MergedDocumentBlock) : Option MergedDocumentBlock :=
  blocks.find? (PinnedTo suggestion ·) <|> blocks.find? (RepeatsText suggestion ·) <|>
    blocks.find? (Tagged toLowerCase suggestion ·)

/-- The suggestion has nothing left to do in a document. -/
def SettledIn (blocks : List MergedDocumentBlock) : Prop :=
  match suggestion.kind with
  | .add => soughtText suggestion = "" ∨ ∃ block ∈ blocks, shownText block = soughtText suggestion
  | .remove => ∀ block ∈ blocks, ¬Found toLowerCase suggestion block
  | .edit => ∀ block ∈ firstFound toLowerCase suggestion blocks, block.text = suggestedBlockText suggestion

instance (blocks : List MergedDocumentBlock) : Decidable (SettledIn toLowerCase suggestion blocks) := by
  unfold SettledIn
  split <;> infer_instance

/-- The suggestion changes the place it is meant for. -/
def PlacesWell (blocks : List MergedDocumentBlock) : Prop :=
  match suggestion.kind with
  | .add => soughtText suggestion = "" ∨ (∃ block ∈ blocks, shownText block = soughtText suggestion) ∨
      "ai-" ++ suggestion.id ∉ blocks.map (·.id)
  | .remove => ∀ block ∈ firstFound toLowerCase suggestion blocks,
      shownText block = soughtText suggestion ∨ PinnedTo suggestion block
  | .edit => True

instance (blocks : List MergedDocumentBlock) : Decidable (PlacesWell toLowerCase suggestion blocks) := by
  unfold PlacesWell
  split <;> infer_instance

/-- At most one place differs: a paragraph is inserted, the text of a block is replaced, or a block is removed
that shows the text or is pinned. -/
inductive OnePlace : List MergedDocumentBlock → List MergedDocumentBlock → Prop
  | same (blocks : List MergedDocumentBlock) : OnePlace blocks blocks
  | inserted (front back : List MergedDocumentBlock) (id text : String) (tag : Option String) :
      OnePlace (front ++ back) (front ++ .paragraph id text tag :: back)
  | replaced (front back : List MergedDocumentBlock) (block : MergedDocumentBlock) (text : String) :
      OnePlace (front ++ block :: back) (front ++ block.setText text :: back)
  | removed (front back : List MergedDocumentBlock) (block : MergedDocumentBlock)
      (h : shownText block = soughtText suggestion ∨ PinnedTo suggestion block) :
      OnePlace (front ++ block :: back) (front ++ back)

variable (blocks : List MergedDocumentBlock)

/-- The suggestion was accepted, and since then only other text was typed: no block the suggestion wrote. -/
def AcceptedBefore (done : List EditorAction) : Prop :=
  ∃ before typed, done = before ++ .accept suggestion :: typed ∧
    ∀ action ∈ typed, ∃ blockId visibleText, action = .input blockId visibleText ∧
      ∀ block ∈ editedBy toLowerCase blocks (before ++ [.accept suggestion]), block.id = blockId →
        block ∈ editedBy toLowerCase blocks before

end Found

/-! ## The target -/

variable {toLowerCase : String → String} {suggestion : AiSuggestion} {blocks : List MergedDocumentBlock}

/-- The block at the index that is found first. -/
theorem bind_findIdx?_orElse (p : MergedDocumentBlock → Bool) (other : Option ℕ) :
    (blocks.findIdx? p <|> other).bind (blocks[·]?) = (blocks.find? p <|> other.bind (blocks[·]?)) := by
  rw [List.find?_eq_bind_findIdx?_getElem?]
  cases hp : blocks.findIdx? p with
  | none => rfl
  | some i =>
    have hi := (List.findIdx?_eq_some_iff_getElem.mp hp).1
    rw [Option.bind_some, List.getElem?_eq_getElem hi]
    exact List.getElem?_eq_getElem hi

/-- The target is the first block found. -/
theorem firstFound_eq (hkind : suggestion.kind ≠ .add) : firstFound toLowerCase suggestion blocks =
    (findSuggestionTargetIndex toLowerCase blocks suggestion).bind (blocks[·]?) := by
  -- Without an id or an anchor no block is looked at.
  have hnone : blocks.findIdx? (fun _ ↦ false) = none := by
    rw [List.findIdx?_eq_none_iff]
    exact fun _ _ ↦ rfl
  have hpinned : ((given suggestion.targetBlockId).bind fun target ↦ blocks.findIdx? (·.id = target)) =
      blocks.findIdx? (PinnedTo suggestion ·) := by
    cases htarget : given suggestion.targetBlockId with
    | none => simp [PinnedTo, htarget, hnone]
    | some target => simp [PinnedTo, htarget, eq_comm]
  have htagged : ((given suggestion.sourceAnchorId).bind fun anchor ↦ blocks.findIdx? fun block ↦
      Includes (toLowerCase block.text) ("[rag:" ++ toLowerCase anchor ++ "]")) =
        blocks.findIdx? (Tagged toLowerCase suggestion ·) := by
    cases hanchor : given suggestion.sourceAnchorId with
    | none => simp [Tagged, hanchor, hnone]
    | some anchor => simp [Tagged, hanchor]
  rw [findSuggestionTargetIndex, if_neg hkind, hpinned, htagged, firstFound]
  dsimp only
  rw [bind_findIdx?_orElse, bind_findIdx?_orElse, bind_findIdx?_orElse, Option.bind_none]
  have hlast : ∀ found : Option MergedDocumentBlock, (found <|> none) = found :=
    fun found ↦ by cases found <;> rfl
  rw [hlast]
  rfl

theorem firstFound_eq_none : firstFound toLowerCase suggestion blocks = none ↔
    ∀ block ∈ blocks, ¬Found toLowerCase suggestion block := by
  rw [firstFound, Option.orElse_eq_none, Option.orElse_eq_none]
  simp only [List.find?_eq_none, decide_eq_true_eq, Found, not_or, forall_and]

theorem found_of_firstFound {block : MergedDocumentBlock}
    (h : firstFound toLowerCase suggestion blocks = some block) : Found toLowerCase suggestion block := by
  rw [firstFound, Option.orElse_eq_some, Option.orElse_eq_some] at h
  rcases h with hpinned | ⟨-, hrepeats | ⟨-, htagged⟩⟩
  · exact .inl (by simpa using List.find?_some hpinned)
  · exact .inr (.inl (by simpa using List.find?_some hrepeats))
  · exact .inr (.inr (by simpa using List.find?_some htagged))

/-- Where a target is found, and where none is. -/
theorem target_cases (hkind : suggestion.kind ≠ .add) :
    (findSuggestionTargetIndex toLowerCase blocks suggestion = none ∧
        firstFound toLowerCase suggestion blocks = none) ∨
      ∃ i, ∃ hi : i < blocks.length, findSuggestionTargetIndex toLowerCase blocks suggestion = some i ∧
        firstFound toLowerCase suggestion blocks = some blocks[i] := by
  rw [firstFound_eq hkind]
  cases htarget : findSuggestionTargetIndex toLowerCase blocks suggestion with
  | none => exact .inl ⟨rfl, rfl⟩
  | some i =>
    have hi := findSuggestionTargetIndex_lt hkind htarget
    exact .inr ⟨i, hi, rfl, List.getElem?_eq_getElem hi⟩

/-! ## What is changed -/

theorem setText_eq_iff {block : MergedDocumentBlock} {text : String} :
    block.setText text = block ↔ block.text = text := by
  cases block <;> simp [MergedDocumentBlock.setText, MergedDocumentBlock.text, eq_comm]

/-- Where one place differs and a block is gone, the block is one that may be removed. -/
theorem onePlace_removed {after : List MergedDocumentBlock} {block : MergedDocumentBlock}
    (hplace : OnePlace suggestion blocks after) (hgone : blocks.Perm (block :: after)) :
    shownText block = soughtText suggestion ∨ PinnedTo suggestion block := by
  have hlength := hgone.length_eq
  cases hplace with
  | same =>
    rw [List.length_cons] at hlength
    omega
  | inserted front back id text tag =>
    rw [List.length_append, List.length_cons, List.length_append, List.length_cons] at hlength
    omega
  | replaced front back other text =>
    rw [List.length_append, List.length_cons, List.length_cons, List.length_append, List.length_cons] at hlength
    omega
  | removed front back other hown =>
    -- The same blocks are left, so the same block is gone.
    have hsame : block = other := by
      have hcount := (List.perm_middle.symm.trans hgone).count_eq block
      rw [List.count_cons, List.count_cons_self] at hcount
      by_contra hne
      rw [if_neg (by simpa using Ne.symm hne)] at hcount
      omega
    rw [hsame]
    exact hown

/-- What an insertion does. -/
theorem act_add (hkind : suggestion.kind = .add) :
    (act toLowerCase blocks (.accept suggestion) = blocks ∧
        (soughtText suggestion = "" ∨ ∃ block ∈ blocks, shownText block = soughtText suggestion)) ∨
      (¬(soughtText suggestion = "" ∨ ∃ block ∈ blocks, shownText block = soughtText suggestion) ∧
        ∃ front back, blocks = front ++ back ∧ act toLowerCase blocks (.accept suggestion) =
          front ++ .paragraph ("ai-" ++ suggestion.id) (suggestedBlockText suggestion) (some "AI 추천 반영") ::
            back) := by
  rw [act, applySuggestionToBlocks, hkind]
  dsimp only
  by_cases hshown : soughtText suggestion = "" ∨ ∃ block ∈ blocks, shownText block = soughtText suggestion
  · have hif := hshown
    rw [soughtText] at hif
    simp only [shownText] at hif
    rw [if_pos hif]
    exact .inl ⟨rfl, hshown⟩
  · have hif := hshown
    rw [soughtText] at hif
    simp only [shownText] at hif
    rw [if_neg hif]
    rw [Option.getD_some, List.append_assoc]
    exact .inr ⟨hshown, _, _, (List.take_append_drop _ blocks).symm, rfl⟩

/-- What a removal does. -/
theorem act_remove (hkind : suggestion.kind = .remove) :
    (act toLowerCase blocks (.accept suggestion) = blocks ∧ firstFound toLowerCase suggestion blocks = none) ∨
      ∃ front block back, blocks = front ++ block :: back ∧
        firstFound toLowerCase suggestion blocks = some block ∧
        act toLowerCase blocks (.accept suggestion) = front ++ back := by
  rw [act, applySuggestionToBlocks_remove hkind]
  rcases @target_cases toLowerCase suggestion blocks (by rw [hkind]; decide) with
    ⟨htarget, hfound⟩ | ⟨i, hi, htarget, hfound⟩
  · rw [htarget]
    exact .inl ⟨rfl, hfound⟩
  · rw [htarget, Option.map_some, Option.getD_some, List.eraseIdx_eq_take_drop_succ]
    exact .inr ⟨_, _, _, by rw [List.getElem_cons_drop, List.take_append_drop], hfound, rfl⟩

/-- What an edit does. -/
theorem act_edit (hkind : suggestion.kind = .edit) :
    (act toLowerCase blocks (.accept suggestion) = blocks ∧ firstFound toLowerCase suggestion blocks = none) ∨
      ∃ front block back, blocks = front ++ block :: back ∧
        firstFound toLowerCase suggestion blocks = some block ∧
        act toLowerCase blocks (.accept suggestion) =
          front ++ block.setText (suggestedBlockText suggestion) :: back := by
  rw [act, applySuggestionToBlocks_edit hkind]
  rcases @target_cases toLowerCase suggestion blocks (by rw [hkind]; decide) with
    ⟨htarget, hfound⟩ | ⟨i, hi, htarget, hfound⟩
  · rw [htarget]
    exact .inl ⟨rfl, hfound⟩
  · rw [htarget, Option.map_some, Option.getD_some, List.modify_eq_take_cons_drop hi]
    exact .inr ⟨_, _, _, by rw [List.getElem_cons_drop, List.take_append_drop], hfound, rfl⟩

/-- **A suggestion changes nothing exactly where it is settled.** -/
theorem act_eq_iff :
    act toLowerCase blocks (.accept suggestion) = blocks ↔ SettledIn toLowerCase suggestion blocks := by
  cases hkind : suggestion.kind with
  | add =>
    rw [SettledIn, hkind]
    rcases @act_add toLowerCase suggestion blocks hkind with
      ⟨hsame, hshown⟩ | ⟨hnew, front, back, hblocks, hafter⟩
    · exact iff_of_true hsame hshown
    -- A document that has grown is not the same.
    · refine iff_of_false (fun hsame ↦ ?_) hnew
      have hlength := congrArg List.length (hafter.symm.trans (hsame.trans hblocks))
      rw [List.length_append, List.length_append, List.length_cons] at hlength
      omega
  | remove =>
    rw [SettledIn, hkind]
    dsimp only
    rw [← firstFound_eq_none]
    rcases @act_remove toLowerCase suggestion blocks hkind with
      ⟨hsame, hnone⟩ | ⟨front, block, back, hblocks, hfound, hafter⟩
    · exact iff_of_true hsame hnone
    · refine iff_of_false (fun hsame ↦ ?_) (by rw [hfound]; exact Option.some_ne_none block)
      have hlength := congrArg List.length (hafter.symm.trans (hsame.trans hblocks))
      rw [List.length_append, List.length_append, List.length_cons] at hlength
      omega
  | edit =>
    rw [SettledIn, hkind]
    dsimp only
    rcases @act_edit toLowerCase suggestion blocks hkind with
      ⟨hsame, hnone⟩ | ⟨front, block, back, hblocks, hfound, hafter⟩
    · rw [hnone]
      exact iff_of_true hsame fun block hmem ↦ nomatch hmem
    · rw [hfound, hafter]
      simp only [Option.mem_some_iff, forall_eq']
      rw [hblocks, List.append_cancel_left_eq, List.cons.injEq, and_iff_left rfl]
      exact setText_eq_iff

/-- **One place is changed, and it is the place meant**, exactly when a removal finds a block that shows the text
or is pinned, and an insertion has an id that is not taken. -/
theorem onePlace_iff (h : (blocks.map (·.id)).Nodup) :
    (OnePlace suggestion blocks (act toLowerCase blocks (.accept suggestion)) ∧
        ((act toLowerCase blocks (.accept suggestion)).map (·.id)).Nodup) ↔
      PlacesWell toLowerCase suggestion blocks := by
  cases hkind : suggestion.kind with
  | add =>
    rw [PlacesWell, hkind]
    dsimp only
    rcases @act_add toLowerCase suggestion blocks hkind with
      ⟨hsame, hshown⟩ | ⟨hnew, front, back, hblocks, hafter⟩
    · rw [hsame]
      exact iff_of_true ⟨.same blocks, h⟩ (hshown.imp_right .inl)
    · rw [hafter]
      have hplace := @OnePlace.inserted suggestion front back ("ai-" ++ suggestion.id)
        (suggestedBlockText suggestion) (some "AI 추천 반영")
      rw [← hblocks] at hplace
      rw [← or_assoc, or_iff_right hnew, and_iff_right hplace]
      rw [hblocks] at h ⊢
      have hperm : ((front ++ .paragraph ("ai-" ++ suggestion.id) (suggestedBlockText suggestion)
          (some "AI 추천 반영") :: back).map (·.id)).Perm
            (("ai-" ++ suggestion.id) :: (front ++ back).map (·.id)) := List.perm_middle.map _
      rw [hperm.nodup_iff, List.nodup_cons, and_iff_left h]
  | remove =>
    rw [PlacesWell, hkind]
    dsimp only
    rcases @act_remove toLowerCase suggestion blocks hkind with
      ⟨hsame, hnone⟩ | ⟨front, block, back, hblocks, hfound, hafter⟩
    · rw [hsame, hnone]
      exact iff_of_true ⟨.same blocks, h⟩ fun block hmem ↦ nomatch hmem
    -- The ids that are left are distinct, so only the block that is removed counts.
    · have hnodup : ((front ++ back).map (·.id)).Nodup := by
        refine h.sublist ?_
        rw [hblocks]
        exact (List.Sublist.append_left (List.sublist_cons_self block back) front).map _
      rw [hafter, hfound, and_iff_left hnodup]
      simp only [Option.mem_some_iff, forall_eq']
      constructor
      · intro hplace
        exact onePlace_removed hplace (hblocks ▸ List.perm_middle)
      · intro hown
        rw [hblocks]
        exact .removed front back block hown
  | edit =>
    rw [PlacesWell, hkind]
    refine iff_of_true ?_ trivial
    rcases @act_edit toLowerCase suggestion blocks hkind with
      ⟨hsame, hnone⟩ | ⟨front, block, back, hblocks, hfound, hafter⟩
    · rw [hsame]
      exact ⟨.same blocks, h⟩
    · rw [hafter]
      refine ⟨by rw [hblocks]; exact .replaced front back block _, ?_⟩
      rw [hblocks] at h
      simpa using h

/-- **A removal is settled by its first application** exactly when it finds no second block. -/
theorem settled_removed_iff (hkind : suggestion.kind = .remove) :
    SettledIn toLowerCase suggestion (act toLowerCase blocks (.accept suggestion)) ↔
      blocks.countP (fun block ↦ Found toLowerCase suggestion block) ≤ 1 := by
  have hzero : ∀ rest, SettledIn toLowerCase suggestion rest ↔
      rest.countP (fun block ↦ Found toLowerCase suggestion block) = 0 := by
    intro rest
    rw [SettledIn, hkind, List.countP_eq_zero]
    simp only [decide_eq_true_eq]
  rw [hzero]
  rcases @act_remove toLowerCase suggestion blocks hkind with
    ⟨hsame, hnone⟩ | ⟨front, block, back, hblocks, hfound, hafter⟩
  · have hcount : blocks.countP (fun block ↦ Found toLowerCase suggestion block) = 0 := by
      rw [← hzero, SettledIn, hkind]
      exact firstFound_eq_none.mp hnone
    rw [hsame, hcount]
    exact iff_of_true rfl (by omega)
  · have hcons : (block :: back).countP (fun block ↦ Found toLowerCase suggestion block) =
        back.countP (fun block ↦ Found toLowerCase suggestion block) + 1 :=
      List.countP_cons_of_pos (decide_eq_true (found_of_firstFound hfound))
    rw [hafter, hblocks, List.countP_append, List.countP_append, hcons]
    omega

/-! ## Runs -/

theorem edited_concat (done : List EditorAction) (action : EditorAction) :
    editedBy toLowerCase blocks (done ++ [action]) = act toLowerCase (editedBy toLowerCase blocks done) action := by
  rw [editedBy, List.foldl_append]
  rfl

/-- Typing changes no id. -/
theorem ids_input (blockId visibleText : String) :
    (act toLowerCase blocks (.input blockId visibleText)).map (·.id) = blocks.map (·.id) := by
  rw [act]
  cases blocksById blocks blockId with
  | none => rfl
  | some last =>
    dsimp only
    rw [changeText, List.map_map]
    refine List.map_congr_left fun block _ ↦ ?_
    rw [Function.comp_apply]
    split
    · exact id_setText block _
    · rfl

/-- The ids stay distinct over a run in which every accepted suggestion keeps them so. -/
theorem nodup_edited (h : (blocks.map (·.id)).Nodup) {actions : List EditorAction}
    (hstep : ∀ done suggestion, done ++ [.accept suggestion] <+: actions →
      ((editedBy toLowerCase blocks done).map (·.id)).Nodup →
        ((editedBy toLowerCase blocks (done ++ [.accept suggestion])).map (·.id)).Nodup) :
    ∀ done, done <+: actions → ((editedBy toLowerCase blocks done).map (·.id)).Nodup := by
  intro done
  -- By the last action: typing changes no id, and an accepted suggestion is a step of the run.
  induction done using List.reverseRecOn with
  | nil => exact fun _ ↦ h
  | append_singleton done action ih =>
    intro hprefix
    have hdone := ih ((List.prefix_append done [action]).trans hprefix)
    match action with
    | .input blockId visibleText =>
      rw [edited_concat, ids_input]
      exact hdone
    | .accept suggestion => exact hstep done suggestion hprefix hdone

/-- A block keeps its text while others are typed in. -/
theorem mem_edited_typed {block : MergedDocumentBlock} (hmem : block ∈ blocks) {typed : List EditorAction}
    (htyped : ∀ action ∈ typed, ∃ blockId visibleText, action = .input blockId visibleText ∧
      block.id ≠ blockId) : block ∈ editedBy toLowerCase blocks typed := by
  induction typed generalizing blocks with
  | nil => exact hmem
  | cons action typed ih =>
    obtain ⟨⟨blockId, visibleText, rfl, hother⟩, hrest⟩ := List.forall_mem_cons.mp htyped
    rw [edited_cons]
    refine ih ?_ hrest
    rw [act]
    cases blocksById blocks blockId with
    | none => exact hmem
    | some last => exact List.mem_map.mpr ⟨block, hmem, if_neg hother⟩

/-- **An insertion is settled when it is retried**, if its paragraph shows the text. -/
theorem settled_inserted (hkind : suggestion.kind = .add) (hnew : ¬SettledIn toLowerCase suggestion blocks)
    (hshows : trimScript (visibleSuggestionText (suggestedBlockText suggestion)) = soughtText suggestion)
    {typed : List EditorAction}
    (htyped : ∀ action ∈ typed, ∃ blockId visibleText, action = .input blockId visibleText ∧
      "ai-" ++ suggestion.id ≠ blockId) :
    SettledIn toLowerCase suggestion (editedBy toLowerCase blocks (.accept suggestion :: typed)) := by
  rw [edited_cons]
  rcases @act_add toLowerCase suggestion blocks hkind with ⟨-, hshown⟩ | ⟨-, front, back, -, hafter⟩
  · rw [SettledIn, hkind] at hnew
    exact absurd hshown hnew
  · rw [SettledIn, hkind, hafter]
    exact .inr ⟨_, mem_edited_typed (List.mem_append_cons_self) htyped, hshows⟩

/-- Where ids are distinct, the block that is pinned is the one that is found. -/
theorem firstFound_of_pinned (h : (blocks.map (·.id)).Nodup) {block : MergedDocumentBlock} (hmem : block ∈ blocks)
    (hpinned : PinnedTo suggestion block) : firstFound toLowerCase suggestion blocks = some block := by
  cases hfind : blocks.find? (PinnedTo suggestion ·) with
  | none => exact absurd hpinned (by simpa using List.find?_eq_none.mp hfind block hmem)
  | some first =>
    obtain ⟨target, htarget, hid⟩ := hpinned
    obtain ⟨target', htarget', hfirst⟩ : PinnedTo suggestion first := by simpa using List.find?_some hfind
    obtain rfl := Option.some.inj (htarget.symm.trans htarget')
    have hsame := List.inj_on_of_nodup_map h (List.mem_of_find?_eq_some hfind) hmem (hfirst.trans hid.symm)
    rw [firstFound, hfind, hsame]
    rfl

/-- Typing changes no ids. -/
theorem ids_edited_typed {typed : List EditorAction}
    (htyped : ∀ action ∈ typed, ∃ blockId visibleText, action = .input blockId visibleText) :
    (editedBy toLowerCase blocks typed).map (·.id) = blocks.map (·.id) := by
  induction typed generalizing blocks with
  | nil => rfl
  | cons action typed ih =>
    obtain ⟨⟨blockId, visibleText, rfl⟩, hrest⟩ := List.forall_mem_cons.mp htyped
    rw [edited_cons, ih hrest, ids_input]

/-- **An edit is settled when it is retried**, if it is pinned. -/
theorem settled_pinned (hkind : suggestion.kind = .edit) (h : (blocks.map (·.id)).Nodup)
    {block : MergedDocumentBlock} (hmem : block ∈ blocks) (hpinned : PinnedTo suggestion block)
    {typed : List EditorAction}
    (htyped : ∀ action ∈ typed, ∃ blockId visibleText, action = .input blockId visibleText ∧
      block.id ≠ blockId) :
    SettledIn toLowerCase suggestion (editedBy toLowerCase blocks (.accept suggestion :: typed)) := by
  have hwell : PlacesWell toLowerCase suggestion blocks := by rw [PlacesWell, hkind]; trivial
  have hnodup := ((onePlace_iff h).mpr hwell).2
  rw [edited_cons, SettledIn, hkind]
  rcases @act_edit toLowerCase suggestion blocks hkind with
    ⟨-, hnone⟩ | ⟨front, found, back, -, hfound, hafter⟩
  · exact absurd ((firstFound_of_pinned h hmem hpinned).symm.trans hnone) (Option.some_ne_none block)
  · obtain rfl := Option.some.inj ((firstFound_of_pinned h hmem hpinned).symm.trans hfound)
    -- The block has its new text, and nobody types in it.
    have hkept : block.setText (suggestedBlockText suggestion) ∈
        editedBy toLowerCase (act toLowerCase blocks (.accept suggestion)) typed := by
      refine mem_edited_typed (by rw [hafter]; exact List.mem_append_cons_self) fun action hmem ↦ ?_
      rw [id_setText]
      exact htyped action hmem
    have hids : ((editedBy toLowerCase (act toLowerCase blocks (.accept suggestion)) typed).map (·.id)).Nodup := by
      rw [ids_edited_typed fun action hmem ↦ ?_]
      · exact hnodup
      · obtain ⟨blockId, visibleText, rfl, -⟩ := htyped action hmem
        exact ⟨blockId, visibleText, rfl⟩
    have hagain : PinnedTo suggestion (block.setText (suggestedBlockText suggestion)) := by
      rw [PinnedTo, id_setText]
      exact hpinned
    dsimp only
    rw [firstFound_of_pinned hids hkept hagain]
    intro other hother
    rw [← Option.mem_some_iff.mp hother, text_setText]

/-- **Accepted suggestions are targeted and safe to retry**, over every run of the editor from a document with
distinct ids, exactly when each is placed well and settled before it is retried. -/
theorem accepted_again_iff (toLowerCase : String → String) (blocks : List MergedDocumentBlock)
    (h : (blocks.map (·.id)).Nodup) (actions : List EditorAction) :
    (∀ done suggestion, done ++ [.accept suggestion] <+: actions →
      OnePlace suggestion (editedBy toLowerCase blocks done)
          (editedBy toLowerCase blocks (done ++ [.accept suggestion])) ∧
        ((editedBy toLowerCase blocks (done ++ [.accept suggestion])).map (·.id)).Nodup ∧
        (AcceptedBefore toLowerCase suggestion blocks done →
          editedBy toLowerCase blocks (done ++ [.accept suggestion]) = editedBy toLowerCase blocks done)) ↔
    ∀ done suggestion, done ++ [.accept suggestion] <+: actions →
      PlacesWell toLowerCase suggestion (editedBy toLowerCase blocks done) ∧
        (AcceptedBefore toLowerCase suggestion blocks done →
          SettledIn toLowerCase suggestion (editedBy toLowerCase blocks done)) := by
  constructor
  · intro hall done suggestion hprefix
    have hnodup := nodup_edited h (fun done suggestion hnext _ ↦ (hall done suggestion hnext).2.1) done
      ((List.prefix_append done _).trans hprefix)
    obtain ⟨hplace, hids, hagain⟩ := hall done suggestion hprefix
    rw [edited_concat] at hplace hids hagain
    exact ⟨(onePlace_iff hnodup).mp ⟨hplace, hids⟩, fun hretried ↦ act_eq_iff.mp (hagain hretried)⟩
  · intro hall done suggestion hprefix
    have hnodup := nodup_edited h (fun done suggestion hnext hdone ↦ by
      rw [edited_concat]
      exact ((onePlace_iff hdone).mpr (hall done suggestion hnext).1).2) done
      ((List.prefix_append done _).trans hprefix)
    obtain ⟨hwell, hsettled⟩ := hall done suggestion hprefix
    obtain ⟨hplace, hids⟩ := (onePlace_iff hnodup).mpr hwell
    rw [edited_concat]
    exact ⟨hplace, hids, fun hretried ↦ act_eq_iff.mpr (hsettled hretried)⟩

/-- The first of two paragraphs is removed, and removed again to no effect. -/
theorem accepted_again_removed :
    let blocks : List MergedDocumentBlock := [.paragraph "p" "one" none, .paragraph "q" "two" none]
    let removal : AiSuggestion := ⟨"s", .remove, none, some "p", "one"⟩
    ∀ done suggestion, done ++ [.accept suggestion] <+: [.accept removal, .accept removal] →
      OnePlace suggestion (editedBy String.toLower blocks done)
          (editedBy String.toLower blocks (done ++ [.accept suggestion])) ∧
        ((editedBy String.toLower blocks (done ++ [.accept suggestion])).map (·.id)).Nodup ∧
        (AcceptedBefore String.toLower suggestion blocks done →
          editedBy String.toLower blocks (done ++ [.accept suggestion]) = editedBy String.toLower blocks done) := by
  intro blocks removal
  refine (accepted_again_iff String.toLower blocks (by decide +kernel) _).mpr fun done suggestion hprefix ↦ ?_
  cases done with
  | nil =>
    obtain ⟨hfirst, -⟩ := List.cons_prefix_cons.mp hprefix
    obtain rfl := EditorAction.accept.inj hfirst
    refine ⟨by decide +kernel, ?_⟩
    rintro ⟨before, typed, hsplit, -⟩
    simp at hsplit
  | cons first done =>
    obtain ⟨rfl, hrest⟩ := List.cons_prefix_cons.mp hprefix
    cases done with
    | nil =>
      obtain ⟨hsecond, -⟩ := List.cons_prefix_cons.mp hrest
      obtain rfl := EditorAction.accept.inj hsecond
      exact ⟨by decide +kernel, fun _ ↦ by decide +kernel⟩
    | cons second done => exact absurd hrest.length_le (by simp)

/-- The second of two equal paragraphs is removed when the removal of the first is retried. -/
theorem accepted_again_repeated :
    ¬∀ (blocks : List MergedDocumentBlock), (blocks.map (·.id)).Nodup → ∀ (actions : List EditorAction),
      ∀ done suggestion, done ++ [.accept suggestion] <+: actions →
        OnePlace suggestion (editedBy String.toLower blocks done)
            (editedBy String.toLower blocks (done ++ [.accept suggestion])) ∧
          ((editedBy String.toLower blocks (done ++ [.accept suggestion])).map (·.id)).Nodup ∧
          (AcceptedBefore String.toLower suggestion blocks done →
            editedBy String.toLower blocks (done ++ [.accept suggestion]) = editedBy String.toLower blocks done) := by
  intro hall
  let removal : AiSuggestion := ⟨"s", .remove, none, some "p", "same"⟩
  obtain ⟨-, -, hagain⟩ := hall [.paragraph "p" "same" none, .paragraph "q" "same" none] (by decide +kernel)
    [.accept removal, .accept removal] [.accept removal] removal (List.prefix_refl _)
  exact absurd (hagain ⟨[], [], rfl, fun action hmem ↦ nomatch hmem⟩) (by decide +kernel)

end MeetingRag
