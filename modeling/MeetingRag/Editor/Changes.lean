import Mathlib.Data.List.DropRight
import MeetingRag.Documents.Blocks

/-!
# Suggestions applied in the editor

The editor of the browser works on the blocks the server stores, without the tags that are blank. An
accepted suggestion is applied to them on the spot: it inserts a paragraph, removes a block or
replaces the text of one, at the block it was pinned to or at the one whose text it repeats.
-/

open Text

namespace MeetingRag

/-- What `trim` and `\s` take for white space. -/
def isScriptSpace (c : Char) : Bool :=
  c.toNat ∈ [9, 10, 11, 12, 13, 32, 0xA0, 0x1680, 0x2028, 0x2029, 0x202F, 0x205F, 0x3000, 0xFEFF] ∨
    (0x2000 ≤ c.toNat ∧ c.toNat ≤ 0x200A)

def trimScript (s : String) : String :=
  String.ofList ((s.toList.dropWhile isScriptSpace).rdropWhile isScriptSpace)

/-! ## The blocks of the editor -/

namespace MergedDocumentBlock

def text : MergedDocumentBlock → String
  | heading _ _ text _ => text
  | paragraph _ text _ => text

def setText (text : String) : MergedDocumentBlock → MergedDocumentBlock
  | heading id level _ tag => heading id level text tag
  | paragraph id _ tag => paragraph id text tag

end MergedDocumentBlock

/-- `_blockTag`. -/
def blockTag (value : Option String) : Option String := value.filter (trimScript · ≠ "")

/-- `_blockFromBackend`. The way back, `_blockToBackend`, changes nothing. -/
def blockFromBackend : MergedDocumentBlock → MergedDocumentBlock
  | .heading id level text tag => .heading id level text (blockTag tag)
  | .paragraph id text tag => .paragraph id text (blockTag tag)

/-- The block under an id. -/
def blockOf (blocks : List MergedDocumentBlock) (blockId : String) : Option MergedDocumentBlock :=
  blocks.find? (·.id = blockId)

/-- `onBlockTextChange`, on the blocks. -/
def changeText (blockId text : String) (blocks : List MergedDocumentBlock) :
    List MergedDocumentBlock :=
  blocks.map fun block ↦ if block.id = blockId then block.setText text else block

/-! ## Suggestions -/

inductive SuggestedChange
  | add | edit | remove
deriving DecidableEq, Repr

structure AiSuggestion where
  id : String
  kind : SuggestedChange
  sourceAnchorId : Option String
  targetBlockId : Option String
  detail : String
deriving DecidableEq, Repr

/-- A bracket expression. -/
def oneOf (characters : String) (c : Char) : Bool := characters.toList.contains c

def hexDigitsOfTag : String := "0123456789abcdefABCDEF"

/-- The characters of `RAG_TAG_PATTERN`, one after the other. -/
def ragTagPattern : List (Char → Bool) :=
  ["[", "rR", "aA", "gG", ":"].map oneOf ++ List.replicate 8 (oneOf hexDigitsOfTag) ++ [oneOf "-"] ++
    List.replicate 27 (oneOf (hexDigitsOfTag ++ "-")) ++ [oneOf "]"]

def startsWithRagTag (s : List Char) : Bool :=
  decide (ragTagPattern.length ≤ s.length) && (ragTagPattern.zip s).all fun p ↦ p.1 p.2

/-- `replace(RAG_TAG_PATTERN, '')`, with `skip` characters of a tag still to be left out. -/
def removeRagTags (skip : ℕ) : List Char → List Char
  | [] => []
  | c :: rest =>
    match skip with
    | k + 1 => removeRagTags k rest
    | 0 =>
      if startsWithRagTag (c :: rest) then removeRagTags (ragTagPattern.length - 1) rest
      else c :: removeRagTags 0 rest

def visibleSuggestionText (text : String) : String :=
  String.ofList ((removeRagTags 0 text.toList).rdropWhile isScriptSpace)

/-- `text.includes(part)`. -/
def Includes (text part : String) : Prop := part.toList <:+: text.toList

instance (text part : String) : Decidable (Includes text part) :=
  inferInstanceAs (Decidable (part.toList <:+: text.toList))

section Targets

variable (toLowerCase : String → String)

/-- A string that is there and not empty. -/
def given (value : Option String) : Option String := value.filter (· ≠ "")

/-- `findSuggestionTargetIndex`, `none` where it returns `-1`. -/
def findSuggestionTargetIndex (blocks : List MergedDocumentBlock) (suggestion : AiSuggestion) :
    Option ℕ :=
  let suggestedText := trimScript (visibleSuggestionText suggestion.detail)
  let pinned := (given suggestion.targetBlockId).bind fun target ↦
    blocks.findIdx? (·.id = target)
  let exactText := blocks.findIdx? fun block ↦
    let text := trimScript (visibleSuggestionText block.text)
    suggestedText ≠ "" ∧ (text = suggestedText ∨ Includes text suggestedText)
  let anchored := (given suggestion.sourceAnchorId).bind fun anchor ↦
    blocks.findIdx? fun block ↦
      Includes (toLowerCase block.text) ("[rag:" ++ toLowerCase anchor ++ "]")
  pinned <|> exactText <|> anchored <|>
    if suggestion.kind = .add then some (blocks.length - 1) else none

def suggestedBlockText (suggestion : AiSuggestion) : String :=
  let text := trimScript (visibleSuggestionText suggestion.detail)
  match given suggestion.sourceAnchorId with
  | none => text
  | some anchor => text ++ " [RAG:" ++ anchor ++ "]"

/-- `applySuggestionToBlocks`, `none` where it hands back the array it was given. -/
def applySuggestionToBlocks (blocks : List MergedDocumentBlock) (suggestion : AiSuggestion) :
    Option (List MergedDocumentBlock) :=
  let targetIndex := findSuggestionTargetIndex toLowerCase blocks suggestion
  match suggestion.kind with
  | .add =>
    let visibleText := trimScript (visibleSuggestionText suggestion.detail)
    if visibleText = "" ∨ ∃ block ∈ blocks, trimScript (visibleSuggestionText block.text) = visibleText
    then none
    else
      let insertAt := targetIndex.elim blocks.length (· + 1)
      some (blocks.take insertAt ++ [.paragraph ("ai-" ++ suggestion.id)
        (suggestedBlockText suggestion) (some "AI 추천 반영")] ++ blocks.drop insertAt)
  | .remove => do
    let i ← targetIndex
    let _ ← blocks[i]?
    some (blocks.eraseIdx i)
  | .edit => do
    let i ← targetIndex
    let _ ← blocks[i]?
    some (blocks.modify i (·.setText (suggestedBlockText suggestion)))

end Targets

/-- An edit pinned to a block replaces its text and keeps its id and tag. -/
example : applySuggestionToBlocks id [.paragraph "b" "old" none]
    ⟨"s", .edit, none, some "b", " new  "⟩ = some [.paragraph "b" "new" none] := by decide +kernel

end MeetingRag
