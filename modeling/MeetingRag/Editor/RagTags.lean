import MeetingRag.Editor.Changes

/-!
# RAG tags in the text of a block

The text of a block carries its RAG tags behind the visible text. A typed text is written back with the tags
of the block, so that the tags are the ones from before and the visible text is the typed one, without the
white space at its end.

A tag has no space in it. So a text is scanned piece by piece between its spaces (`ragTagIds_space`,
`removeRagTags_space`), and the tags that are written back are found again.
-/

open Text

namespace MeetingRag

/-! ## Texts -/

/-- `filter((value, index, values) => values.indexOf(value) === index)`. -/
def distinctIds : List String → List String
  | [] => []
  | value :: rest => value :: (distinctIds rest).filter (· ≠ value)

/-- The captures of `matchAll(RAG_TAG_PATTERN)`, with `skip` characters of a tag still to be left out. -/
def ragTagIds (skip : ℕ) : List Char → List String
  | [] => []
  | c :: rest =>
    match skip with
    | k + 1 => ragTagIds k rest
    | 0 =>
      if startsWithRagTag (c :: rest) then
        String.ofList ((rest.drop 4).take 36) :: ragTagIds (ragTagPattern.length - 1) rest
      else ragTagIds 0 rest

/-- `extractRagAnchorIds`. -/
def extractRagAnchorIds (text : String) : List String := distinctIds (ragTagIds 0 text.toList)

/-- `visibleBlockText`. -/
def visibleBlockText (text : String) : String :=
  String.ofList ((removeRagTags 0 text.toList).rdropWhile isScriptSpace)

def trimEnd (s : String) : String := String.ofList (s.toList.rdropWhile isScriptSpace)

/-- The text that `handleInput` writes for a block with some text when another one is typed. -/
def inputText (text visibleText : String) : String :=
  let ragTags := join " " ((extractRagAnchorIds text).map fun id ↦ "[RAG:" ++ id ++ "]")
  trimEnd visibleText ++ if ragTags = "" then "" else " " ++ ragTags

/-! ## The pattern -/

/-- The first characters match a list of classes. -/
def Starts : List (Char → Bool) → List Char → Prop
  | [], _ => True
  | _ :: _, [] => False
  | p :: pattern, c :: s => p c = true ∧ Starts pattern s

theorem startsWithRagTag_iff (s : List Char) : startsWithRagTag s = true ↔ Starts ragTagPattern s := by
  rw [startsWithRagTag, Bool.and_eq_true, decide_eq_true_iff]
  generalize ragTagPattern = pattern
  induction pattern generalizing s with
  | nil => simp [Starts]
  | cons p pattern ih =>
    cases s with
    | nil => simp [Starts]
    | cons c s =>
      rw [Starts, ← ih]
      simp only [List.length_cons, Nat.add_le_add_iff_right, List.zip_cons_cons, List.all_cons,
        Bool.and_eq_true]
      exact and_left_comm

theorem starts_append_iff {pattern pattern' : List (Char → Bool)} {s : List Char} :
    Starts (pattern ++ pattern') s ↔ Starts pattern s ∧ Starts pattern' (s.drop pattern.length) := by
  induction pattern generalizing s with
  | nil => simp [Starts]
  | cons p pattern ih =>
    cases s with
    | nil => simp [Starts]
    | cons c s =>
      rw [List.cons_append, Starts, Starts, ih, List.length_cons, List.drop_succ_cons, and_assoc]

theorem Starts.length_le {pattern : List (Char → Bool)} {s : List Char} (h : Starts pattern s) :
    pattern.length ≤ s.length := by
  induction pattern generalizing s with
  | nil => exact Nat.zero_le _
  | cons p pattern ih =>
    cases s with
    | nil => exact h.elim
    | cons c s => exact Nat.succ_le_succ (ih h.2)

theorem Starts.append {pattern : List (Char → Bool)} {s : List Char} (h : Starts pattern s)
    (t : List Char) : Starts pattern (s ++ t) := by
  induction pattern generalizing s with
  | nil => trivial
  | cons p pattern ih =>
    cases s with
    | nil => exact h.elim
    | cons c s => exact ⟨h.1, ih h.2⟩

theorem Starts.take {pattern : List (Char → Bool)} {s : List Char} (h : Starts pattern s) :
    Starts pattern (s.take pattern.length) := by
  induction pattern generalizing s with
  | nil => trivial
  | cons p pattern ih =>
    cases s with
    | nil => exact h.elim
    | cons c s => exact ⟨h.1, ih h.2⟩

/-- A match of classes without the space does not reach over a space. -/
theorem Starts.of_space {pattern : List (Char → Bool)} (hpattern : ∀ p ∈ pattern, p ' ' = false)
    {s t : List Char} (h : Starts pattern (s ++ ' ' :: t)) : Starts pattern s := by
  induction pattern generalizing s with
  | nil => trivial
  | cons p pattern ih =>
    rw [List.forall_mem_cons] at hpattern
    cases s with
    | nil => exact absurd h.1 (by simp [hpattern.1])
    | cons c s => exact ⟨h.1, ih hpattern.2 h.2⟩

/-- The classes of an anchor id in a tag. -/
def anchorPattern : List (Char → Bool) :=
  List.replicate 8 (oneOf hexDigitsOfTag) ++ [oneOf "-"] ++ List.replicate 27 (oneOf (hexDigitsOfTag ++ "-"))

theorem ragTagPattern_eq :
    ragTagPattern = ["[", "rR", "aA", "gG", ":"].map oneOf ++ (anchorPattern ++ [oneOf "]"]) := by
  simp only [ragTagPattern, anchorPattern, List.append_assoc]

theorem ragTagPattern_space : ∀ p ∈ ragTagPattern, p ' ' = false := by
  have hall : (ragTagPattern.all fun p ↦ !p ' ') = true := by decide
  intro p hp
  simpa using List.all_eq_true.mp hall p hp

theorem startsWithRagTag_space (s t : List Char) :
    startsWithRagTag (s ++ ' ' :: t) = startsWithRagTag s := by
  rw [Bool.eq_iff_iff, startsWithRagTag_iff, startsWithRagTag_iff]
  exact ⟨Starts.of_space ragTagPattern_space, fun h ↦ h.append _⟩

/-! ## Scans -/

theorem ragTagPattern_length : ragTagPattern.length = 42 := by decide

theorem not_startsWithRagTag_space (t : List Char) : startsWithRagTag (' ' :: t) = false := by
  have h := startsWithRagTag_space [] t
  rw [List.nil_append] at h
  rw [h]
  decide

/-- **A space cuts a scan in two.** -/
theorem ragTagIds_space (s t : List Char) (k : ℕ) (hk : k ≤ s.length) :
    ragTagIds k (s ++ ' ' :: t) = ragTagIds k s ++ ragTagIds 0 t := by
  induction s generalizing k with
  | nil =>
    obtain rfl : k = 0 := by simpa using hk
    have hskip : ragTagIds 0 (' ' :: t) = ragTagIds 0 t := if_neg (by simp [not_startsWithRagTag_space])
    exact hskip
  | cons c s ih =>
    cases k with
    | succ k => exact ih k (by simpa using hk)
    | zero =>
      have hsame := startsWithRagTag_space (c :: s) t
      rw [List.cons_append] at hsame ⊢
      rw [ragTagIds, ragTagIds, hsame]
      by_cases hstarts : startsWithRagTag (c :: s) = true
      · have hlength := ((startsWithRagTag_iff _).mp hstarts).length_le
        rw [ragTagPattern_length, List.length_cons] at hlength
        rw [if_pos hstarts, if_pos hstarts, ragTagPattern_length, ih 41 (by omega),
          List.drop_append_of_le_length (by omega), List.take_append_of_le_length (by
            rw [List.length_drop]; omega), List.cons_append]
      · rw [if_neg hstarts, if_neg hstarts, ih 0 (Nat.zero_le _)]

theorem removeRagTags_space (s t : List Char) (k : ℕ) (hk : k ≤ s.length) :
    removeRagTags k (s ++ ' ' :: t) = removeRagTags k s ++ ' ' :: removeRagTags 0 t := by
  induction s generalizing k with
  | nil =>
    obtain rfl : k = 0 := by simpa using hk
    have hskip : removeRagTags 0 (' ' :: t) = ' ' :: removeRagTags 0 t :=
      if_neg (by simp [not_startsWithRagTag_space])
    exact hskip
  | cons c s ih =>
    cases k with
    | succ k => exact ih k (by simpa using hk)
    | zero =>
      have hsame := startsWithRagTag_space (c :: s) t
      rw [List.cons_append] at hsame ⊢
      rw [removeRagTags, removeRagTags, hsame]
      by_cases hstarts : startsWithRagTag (c :: s) = true
      · have hlength := ((startsWithRagTag_iff _).mp hstarts).length_le
        rw [ragTagPattern_length, List.length_cons] at hlength
        rw [if_pos hstarts, if_pos hstarts, ragTagPattern_length, ih 41 (by omega)]
      · rw [if_neg hstarts, if_neg hstarts, ih 0 (Nat.zero_le _), List.cons_append]

theorem ragTagIds_of_length_le {s : List Char} {k : ℕ} (h : s.length ≤ k) : ragTagIds k s = [] := by
  induction s generalizing k with
  | nil => rfl
  | cons c s ih =>
    obtain ⟨k, rfl⟩ : ∃ n, k = n + 1 := ⟨k - 1, by simp at h; omega⟩
    exact ih (by simpa using h)

theorem removeRagTags_of_length_le {s : List Char} {k : ℕ} (h : s.length ≤ k) : removeRagTags k s = [] := by
  induction s generalizing k with
  | nil => rfl
  | cons c s ih =>
    obtain ⟨k, rfl⟩ : ∃ n, k = n + 1 := ⟨k - 1, by simp at h; omega⟩
    exact ih (by simpa using h)

/-! ## Tags that are written -/

/-- A text that a tag can hold. -/
def IsAnchorId (id : String) : Prop := id.toList.length = 36 ∧ Starts anchorPattern id.toList

/-- The characters of a tag. -/
def ragTag (id : String) : List Char := "[RAG:".toList ++ id.toList ++ [']']

theorem isAnchorId_of_mem {s : List Char} {k : ℕ} {id : String} (h : id ∈ ragTagIds k s) : IsAnchorId id := by
  induction s generalizing k with
  | nil => exact absurd h List.not_mem_nil
  | cons c s ih =>
    cases k with
    | succ k => exact ih h
    | zero =>
      rw [ragTagIds] at h
      split at h
      · rename_i hstarts
        rcases List.mem_cons.mp h with rfl | h
        · have hpattern := (startsWithRagTag_iff _).mp hstarts
          have hlength := hpattern.length_le
          rw [ragTagPattern_eq, starts_append_iff, starts_append_iff] at hpattern
          have hid : Starts anchorPattern (s.drop 4) := hpattern.2.1
          have htake := hid.take
          rw [ragTagPattern_length, List.length_cons] at hlength
          refine ⟨?_, ?_⟩
          · rw [String.toList_ofList, List.length_take, List.length_drop]
            omega
          · rw [String.toList_ofList]
            exact htake
        · exact ih h
      · exact ih h

theorem IsAnchorId.starts {id : String} (h : IsAnchorId id) : startsWithRagTag (ragTag id) = true := by
  rw [startsWithRagTag_iff, ragTagPattern_eq, starts_append_iff]
  have hlength : anchorPattern.length = 36 := by decide
  have hhead : Starts (["[", "rR", "aA", "gG", ":"].map oneOf) "[RAG:".toList :=
    ⟨by decide, by decide, by decide, by decide, by decide, trivial⟩
  refine ⟨by rw [ragTag, List.append_assoc]; exact hhead.append _, ?_⟩
  have hdrop : (ragTag id).drop 5 = id.toList ++ [']'] := rfl
  rw [List.length_map, show ["[", "rR", "aA", "gG", ":"].length = 5 from rfl, hdrop, starts_append_iff, hlength]
  refine ⟨h.2.append _, ?_⟩
  rw [← h.1, List.drop_left]
  exact ⟨by decide, trivial⟩

theorem IsAnchorId.scan {id : String} (h : IsAnchorId id) :
    ragTagIds 0 (ragTag id) = [id] ∧ removeRagTags 0 (ragTag id) = [] := by
  have hstarts := h.starts
  have hcons : ragTag id = '[' :: ("RAG:".toList ++ id.toList ++ [']']) := rfl
  have hlength : ("RAG:".toList ++ id.toList ++ [']']).length = 41 := by
    rw [List.length_append, List.length_append, h.1]
    rfl
  rw [hcons] at hstarts ⊢
  rw [ragTagIds, removeRagTags, if_pos hstarts, if_pos hstarts, ragTagPattern_length,
    ragTagIds_of_length_le hlength.le, removeRagTags_of_length_le hlength.le]
  have hdrop : ("RAG:".toList ++ id.toList ++ [']']).drop 4 = id.toList ++ [']'] := rfl
  rw [hdrop, ← h.1, List.take_left, String.ofList_toList]
  exact ⟨rfl, rfl⟩

/-- Tags with a space before each. -/
def spacedTags (ids : List String) : List Char := ids.flatMap fun id ↦ ' ' :: ragTag id

/-- **Tags behind a text are found after those in it**, and are left out with the spaces kept. -/
theorem scan_spacedTags (ids : List String) (hids : ∀ id ∈ ids, IsAnchorId id) (s : List Char) :
    ragTagIds 0 (s ++ spacedTags ids) = ragTagIds 0 s ++ ids ∧
      removeRagTags 0 (s ++ spacedTags ids) = removeRagTags 0 s ++ List.replicate ids.length ' ' := by
  induction ids generalizing s with
  | nil => simp [spacedTags]
  | cons id ids ih =>
    rw [List.forall_mem_cons] at hids
    obtain ⟨hscan, hremove⟩ := hids.1.scan
    obtain ⟨hrest, hrest'⟩ := ih hids.2 (ragTag id)
    have hcons : spacedTags (id :: ids) = ' ' :: (ragTag id ++ spacedTags ids) := rfl
    rw [hcons, ragTagIds_space s _ 0 (Nat.zero_le _), removeRagTags_space s _ 0 (Nat.zero_le _), hrest, hrest',
      hscan, hremove]
    exact ⟨rfl, rfl⟩

/-- A part of a text without tags has none, and nothing is left out of it. -/
theorem scan_of_none {s t : List Char} (h : ragTagIds 0 (s ++ t) = []) :
    ragTagIds 0 s = [] ∧ removeRagTags 0 s = s := by
  induction s with
  | nil => exact ⟨rfl, rfl⟩
  | cons c s ih =>
    have hnot : ¬startsWithRagTag (c :: s) = true := by
      intro hstarts
      have hmore := (startsWithRagTag_iff _).mpr (((startsWithRagTag_iff _).mp hstarts).append t)
      rw [List.cons_append] at h hmore
      rw [ragTagIds, if_pos hmore] at h
      exact nomatch h
    have hnot' : ragTagIds 0 (s ++ t) = [] := by
      rw [List.cons_append, ragTagIds] at h
      split at h
      · exact nomatch h
      · exact h
    obtain ⟨hids, hsame⟩ := ih hnot'
    rw [ragTagIds, removeRagTags, if_neg hnot, if_neg hnot, hids, hsame]
    exact ⟨rfl, rfl⟩

/-! ## What is typed -/

theorem distinctIds_filter (p : String → Bool) (l : List String) :
    distinctIds (l.filter p) = (distinctIds l).filter p := by
  induction l with
  | nil => rfl
  | cons a l ih =>
    by_cases ha : p a = true
    · rw [List.filter_cons_of_pos ha, distinctIds, distinctIds, ih, List.filter_cons_of_pos ha, List.filter_filter,
        List.filter_filter]
      exact congrArg _ (List.filter_congr fun x _ ↦ Bool.and_comm _ _)
    · rw [List.filter_cons_of_neg ha, ih, distinctIds, List.filter_cons_of_neg ha, List.filter_filter]
      refine List.filter_congr fun x _ ↦ ?_
      by_cases hx : x = a
      · simp [hx, ha]
      · simp [hx]

theorem distinctIds_distinctIds (l : List String) : distinctIds (distinctIds l) = distinctIds l := by
  induction l with
  | nil => rfl
  | cons a l ih =>
    rw [distinctIds, distinctIds, distinctIds_filter, ih, List.filter_filter]
    simp

theorem mem_of_mem_distinctIds {l : List String} {a : String} (h : a ∈ distinctIds l) : a ∈ l := by
  induction l with
  | nil => exact h
  | cons b l ih =>
    rcases List.mem_cons.mp h with rfl | h
    · exact List.mem_cons_self
    · exact List.mem_cons_of_mem _ (ih (List.mem_of_mem_filter h))

theorem intercalate_tags {l : List String} (hne : l ≠ []) :
    ' ' :: [' '].intercalate (l.map ragTag) = spacedTags l := by
  induction l with
  | nil => exact absurd rfl hne
  | cons id l ih =>
    cases l with
    | nil => simp [spacedTags]
    | cons id' l =>
      have hrest := ih (by simp)
      rw [List.map_cons, List.map_cons, List.intercalate_cons_cons, ← List.map_cons]
      have hcons : spacedTags (id :: id' :: l) = ' ' :: (ragTag id ++ spacedTags (id' :: l)) := rfl
      rw [hcons, ← hrest]
      simp

/-- The text that is written, as characters. -/
theorem toList_inputText (text visibleText : String) : (inputText text visibleText).toList =
    visibleText.toList.rdropWhile isScriptSpace ++ spacedTags (extractRagAnchorIds text) := by
  rw [inputText, trimEnd]
  have hjoin : (join " " ((extractRagAnchorIds text).map fun id ↦ "[RAG:" ++ id ++ "]")).toList =
      [' '].intercalate ((extractRagAnchorIds text).map ragTag) := by
    rw [join, String.toList_intercalate, List.map_map]
    refine congrArg _ (List.map_congr_left fun id _ ↦ ?_)
    simp [ragTag]
  cases hids : extractRagAnchorIds text with
  | nil => simp [join, spacedTags]
  | cons id ids =>
    rw [← hids]
    have hne : extractRagAnchorIds text ≠ [] := by rw [hids]; simp
    have hspaced := intercalate_tags hne
    rw [← hjoin] at hspaced
    split
    · rename_i hempty
      rw [hempty] at hspaced
      rw [hids] at hspaced
      exact absurd hspaced (by simp [spacedTags, ragTag])
    · rw [String.toList_append, String.toList_append, String.toList_ofList, ← hspaced]
      rfl

theorem rdropWhile_spaces (s : List Char) (n : ℕ) :
    (s ++ List.replicate n ' ').rdropWhile isScriptSpace = s.rdropWhile isScriptSpace := by
  induction n with
  | zero => rw [List.replicate_zero, List.append_nil]
  | succ n ih =>
    rw [List.replicate_succ', ← List.append_assoc, List.rdropWhile_concat_pos _ _ _ (by decide), ih]

/-- **A typed text without tags keeps the anchors of the block**, and is what is shown. -/
theorem inputText_keeps {text visibleText : String} (h : extractRagAnchorIds visibleText = []) :
    extractRagAnchorIds (inputText text visibleText) = extractRagAnchorIds text ∧
      visibleBlockText (inputText text visibleText) = trimEnd visibleText := by
  have hnone : ragTagIds 0 visibleText.toList = [] := by
    rw [extractRagAnchorIds] at h
    cases htags : ragTagIds 0 visibleText.toList with
    | nil => rfl
    | cons id ids =>
      rw [htags] at h
      exact nomatch h
  obtain ⟨spaces, hspaces⟩ : visibleText.toList.rdropWhile isScriptSpace <+: visibleText.toList :=
    List.rdropWhile_prefix _ _
  rw [← hspaces] at hnone
  obtain ⟨hids, hkept⟩ := scan_of_none hnone
  have hanchors : ∀ id ∈ extractRagAnchorIds text, IsAnchorId id :=
    fun id hmem ↦ isAnchorId_of_mem (mem_of_mem_distinctIds hmem)
  obtain ⟨hscan, hremove⟩ := scan_spacedTags (extractRagAnchorIds text) hanchors
    (visibleText.toList.rdropWhile isScriptSpace)
  constructor
  · rw [extractRagAnchorIds, toList_inputText, hscan, hids, List.nil_append]
    exact distinctIds_distinctIds _
  · rw [visibleBlockText, toList_inputText, hremove, hkept, rdropWhile_spaces, List.rdropWhile_idempotent]
    rfl

end MeetingRag
