import MeetingRag.Ingestion.XlsxTexts

/-!
# What the extractor of XLSX documents raises

Nearly everything that is wrong with a workbook is a typed failure. Two things are not: the index of a
shared string may be text that is a digit to `str.isdigit` and no numeral to `int`, and two cells may have
the same anchor, which only the result checks. The extractor then raises a `ValueError`.

A cell is reached when everything in front of it could be read and fits the limits.

## Main results

* `walkCells_walks`, `walkSheets_walks`: the three ways in which the loops end.
* `validate_resultOf`: the check for duplicates is the only one of the result that can fail.
* `extract_typed_iff`: when every exception is a typed failure.
-/

open Outcome Py Py.Json

namespace MeetingRag

namespace Xlsx

/-! ## Readings -/

/-- What the loops go over: a cell, with the name of its sheet, or a part that cannot be read. -/
inductive Item
  | unreadable (failure : ExtractionFailure)
  | cell (sheet : Str) (element : XmlElement)

/-- What the loops find at an item. -/
inductive Reading
  | failed (failure : ExtractionFailure)
  | numeral
  | blank
  | placed (p : Placed)
deriving DecidableEq

/-- The index of the shared string is made of digits, and is no numeral. -/
def BadNumeral (D : Digits) (cell : XmlElement) : Prop :=
  cell.get "t" = some (lit "s") ∧ isDigitText D (rawIndex cell) = true ∧
    D.int (rawIndex cell) = none

instance (D : Digits) (cell : XmlElement) : Decidable (BadNumeral D cell) :=
  inferInstanceAs (Decidable (_ ∧ _ ∧ _))

section Reading

variable (U : Nfc) (L : Letters) (D : Digits)

/-- The items of a sheet. -/
def sheetItems (readPart : Str → Except ExtractionFailure XmlElement) (sheet : Str × Str) : List Item :=
  match readPart sheet.2 with
  | .error f => [.unreadable f]
  | .ok root => (descendants xlsxNamespaces "c" root).map (.cell sheet.1)

/-- The reading of an item, by what the extractor asks of a cell. -/
def reading (sharedStrings : List Str) : Item → Reading
  | .unreadable f => .failed f
  | .cell sheet element =>
    match cellValue U D sharedStrings element with
    | .error (.failure f) => .failed f
    | .error (.exc _) => .numeral
    | .ok [] => .blank
    | .ok (c :: t) =>
      match element.get "r" with
      | none | some [] => .failed ⟨"CORRUPT_DOCUMENT", "XLSX text cell has no coordinate"⟩
      | some (d :: reference) =>
        match cellLocation U L (d :: reference) with
        | .error f => .failed f
        | .ok (cellRef, row, column) => .placed ⟨sheet, cellRef, row, column, c :: t⟩

end Reading

/-- The text of a reading. -/
def Reading.text? : Reading → Option Placed
  | .placed p => some p
  | _ => none

/-- The texts among some readings. -/
def texts (readings : List Reading) : List Placed := readings.filterMap Reading.text?

theorem texts_append (a b : List Reading) : texts (a ++ b) = texts a ++ texts b :=
  List.filterMap_append

/-- The number of characters of some texts. -/
def textChars (ps : List Placed) : ℕ := (ps.map (·.text.length)).sum

theorem textChars_append (a b : List Placed) : textChars (a ++ b) = textChars a + textChars b := by
  rw [textChars, List.map_append, List.sum_append]
  rfl

/-- The texts stay within the two limits. -/
def Within (limits : Limits) (ps : List Placed) : Prop :=
  ps.length ≤ limits.maxBlocks ∧ textChars ps ≤ limits.maxTotalChars

/-- The loops go past some readings: they are blank or texts, and the texts stay within the limits. -/
structure Reached (limits : Limits) (readings : List Reading) : Prop where
  readable : ∀ r ∈ readings, r = .blank ∨ ∃ p, r = .placed p
  within : Within limits (texts readings)

/-- The loops end at a reading behind others. -/
def Ends (limits : Limits) (before : List Reading) : Reading → Prop
  | .failed _ => True
  | .numeral => True
  | .blank => False
  | .placed p => ¬Within limits (texts before ++ [p])

section Reached

variable {limits : Limits} {before before' after after' readings : List Reading} {r r' : Reading}

theorem Reached.of_prefix (h : Reached limits (before ++ after)) : Reached limits before where
  readable r hr := h.readable r (List.mem_append_left _ hr)
  within := by
    obtain ⟨hblocks, hchars⟩ := h.within
    rw [texts_append, List.length_append] at hblocks
    rw [texts_append, textChars_append] at hchars
    exact ⟨by omega, by omega⟩

/-- The loops do not go past a reading at which they end. -/
theorem Ends.not_reached (h : Ends limits before r) : ¬Reached limits (before ++ r :: after) := by
  intro hreached
  rw [← List.singleton_append, ← List.append_assoc] at hreached
  have hone := hreached.of_prefix
  cases r with
  | failed f =>
    obtain hr | ⟨p, hr⟩ := hone.readable _ (List.mem_append_right _ (List.mem_singleton_self _))
    · exact nomatch hr
    · exact nomatch hr
  | numeral =>
    obtain hr | ⟨p, hr⟩ := hone.readable _ (List.mem_append_right _ (List.mem_singleton_self _))
    · exact nomatch hr
    · exact nomatch hr
  | blank => exact h
  | placed p =>
    refine h ?_
    have hwithin := hone.within
    rwa [texts_append] at hwithin

/-- **The loops end at one place.** -/
theorem Ends.unique (hsplit : before ++ r :: after = before' ++ r' :: after')
    (hreached : Reached limits before) (hreached' : Reached limits before')
    (hends : Ends limits before r) (hends' : Ends limits before' r') : before = before' ∧ r = r' := by
  obtain ⟨mid, rfl, hrest⟩ | ⟨mid, rfl, hrest⟩ := List.append_eq_append_iff.mp hsplit
  · cases mid with
    | nil => exact ⟨(List.append_nil _).symm, (List.cons.inj hrest).1⟩
    | cons s mid =>
      obtain ⟨rfl, -⟩ := List.cons.inj hrest
      exact absurd hreached' hends.not_reached
  · cases mid with
    | nil => exact ⟨List.append_nil _, (List.cons.inj hrest).1.symm⟩
    | cons s mid =>
      obtain ⟨rfl, -⟩ := List.cons.inj hrest
      exact absurd hreached hends'.not_reached

end Reached

/-! ## The loops -/

/-- The blocks of some texts. -/
def blocksOf (source : Docx.Source) (ps : List Placed) : List ExtractedBlock :=
  ps.zipIdx.map fun x ↦ ⟨x.2, x.1.text, anchorOf source x.1⟩

theorem length_blocksOf (source : Docx.Source) (ps : List Placed) :
    (blocksOf source ps).length = ps.length := by
  rw [blocksOf, List.length_map, List.length_zipIdx]

theorem blocksOf_concat (source : Docx.Source) (ps : List Placed) (p : Placed) :
    blocksOf source (ps ++ [p]) = blocksOf source ps ++ [⟨ps.length, p.text, anchorOf source p⟩] := by
  simp [blocksOf, List.zipIdx_append]

/-- A walk has gone past some readings. -/
structure Past (source : Docx.Source) (limits : Limits) (readings : List Reading) (w : Walk) : Prop where
  reached : Reached limits readings
  blocks : w.blocks = blocksOf source (texts readings)
  total : w.totalChars = textChars (texts readings)

/-- How a loop over some readings ends that starts behind others. -/
inductive Walks (source : Docx.Source) (limits : Limits) (start readings : List Reading) :
    Except XlsxError Walk → Prop
  | through {w : Walk} (past : Past source limits (start ++ readings) w) (silent : w.warnings = []) :
      Walks source limits start readings (.ok w)
  | full {w : Walk} {before : List Reading} {p : Placed} {after : List Reading}
      (split : readings = before ++ .placed p :: after)
      (past : Past source limits (start ++ before) w)
      (ends : Ends limits (start ++ before) (.placed p))
      (warned : w.warnings = [⟨lastOrdinal w.blocks⟩]) : Walks source limits start readings (.ok w)
  | failed {before : List Reading} {f : ExtractionFailure} {after : List Reading}
      (split : readings = before ++ .failed f :: after) (reached : Reached limits (start ++ before)) :
      Walks source limits start readings (.error (.failure f))
  | numeral {before : List Reading} {e : Exc} {after : List Reading}
      (split : readings = before ++ .numeral :: after) (reached : Reached limits (start ++ before)) :
      Walks source limits start readings (.error (.exc e))

section Loops

variable {U : Nfc} {L : Letters} {D : Digits} {source : Docx.Source} {limits : Limits} {w : Walk}
  {start a b : List Reading} {x : Except XlsxError Walk} {p : Placed}

theorem Past.blank (h : Past source limits start w) : Past source limits (start ++ [.blank]) w := by
  have htexts : texts (start ++ [.blank]) = texts start := by
    rw [texts_append]
    exact List.append_nil _
  refine ⟨⟨fun r hr ↦ ?_, htexts ▸ h.reached.within⟩, htexts ▸ h.blocks, htexts ▸ h.total⟩
  rcases List.mem_append.mp hr with hr | hr
  · exact h.reached.readable r hr
  · exact .inl (List.mem_singleton.mp hr)

theorem Past.placed (h : Past source limits start w) (hwithin : Within limits (texts start ++ [p])) :
    Past source limits (start ++ [.placed p])
      { w with
        blocks := w.blocks ++ [⟨w.blocks.length, p.text, anchorOf source p⟩]
        totalChars := w.totalChars + p.text.length } := by
  have htexts : texts (start ++ [.placed p]) = texts start ++ [p] := texts_append _ _
  refine ⟨⟨fun r hr ↦ ?_, htexts ▸ hwithin⟩, ?_, ?_⟩
  · rcases List.mem_append.mp hr with hr | hr
    · exact h.reached.readable r hr
    · exact .inr ⟨p, List.mem_singleton.mp hr⟩
  · dsimp only
    rw [htexts, blocksOf_concat, h.blocks, length_blocksOf]
  · dsimp only
    rw [htexts, textChars_append, h.total]
    rfl

/-- There is room for a text where the check of the loop finds it. -/
theorem Past.within_iff (h : Past source limits start w) :
    Within limits (texts start ++ [p]) ↔ ¬(w.blocks.length ≥ limits.maxBlocks ∨
      w.totalChars + p.text.length > limits.maxTotalChars) := by
  have hchars : textChars [p] = p.text.length := Nat.add_zero _
  rw [Within, textChars_append, hchars, List.length_append, List.length_singleton, h.total, h.blocks,
    length_blocksOf]
  omega

/-- A loop that goes on behind another. -/
theorem Walks.append (h : Walks source limits (start ++ a) b x) : Walks source limits start (a ++ b) x := by
  cases h with
  | through past silent => exact .through (by rwa [List.append_assoc] at past) silent
  | full split past ends warned =>
    rw [List.append_assoc] at past ends
    exact .full (by rw [split, List.append_assoc]) past ends warned
  | failed split reached =>
    rw [List.append_assoc] at reached
    exact .failed (by rw [split, List.append_assoc]) reached
  | numeral split reached =>
    rw [List.append_assoc] at reached
    exact .numeral (by rw [split, List.append_assoc]) reached

/-- A loop that has ended early. -/
theorem Walks.stopped (h : Walks source limits start a x) (hx : ∀ w, x = .ok w → w.warnings ≠ []) :
    Walks source limits start (a ++ b) x := by
  cases h with
  | through past silent => exact absurd silent (hx _ rfl)
  | full split past ends warned =>
    exact .full (by rw [split, List.append_assoc, List.cons_append]) past ends warned
  | failed split reached =>
    exact .failed (by rw [split, List.append_assoc, List.cons_append]) reached
  | numeral split reached =>
    exact .numeral (by rw [split, List.append_assoc, List.cons_append]) reached

theorem Walks.failed_here {f : ExtractionFailure} (h : Past source limits start w) :
    Walks source limits start (.failed f :: b) (.error (.failure f)) :=
  .failed (List.nil_append _).symm (by rw [List.append_nil]; exact h.reached)

/-- **The loop over the cells of a sheet.** -/
theorem walkCells_walks {sharedStrings : List Str} {sheet : Str} {cells : List XmlElement}
    (hsound : ∀ p, .placed p ∈ cells.map (fun cell ↦ reading U L D sharedStrings (.cell sheet cell)) →
      Sound U p) (hpast : Past source limits start w) (hsilent : w.warnings = []) :
    Walks source limits start (cells.map fun cell ↦ reading U L D sharedStrings (.cell sheet cell))
      (walkCells U L D source limits sharedStrings sheet w cells) := by
  induction cells generalizing w start with
  | nil => exact .through (by rw [List.map_nil, List.append_nil]; exact hpast) hsilent
  | cons cell cells ih =>
    rw [List.map_cons] at hsound ⊢
    have hrest := fun p hp ↦ hsound p (List.mem_cons_of_mem _ hp)
    have hfirst : ∀ p, reading U L D sharedStrings (.cell sheet cell) = .placed p → Sound U p :=
      fun p hp ↦ hsound p (hp ▸ List.mem_cons_self)
    rw [walkCells]
    cases hvalue : cellValue U D sharedStrings cell with
    | error e =>
      cases e with
      | failure f =>
        rw [show reading U L D sharedStrings (.cell sheet cell) = .failed f by rw [reading, hvalue]]
        exact .failed_here hpast
      | exc e =>
        rw [show reading U L D sharedStrings (.cell sheet cell) = .numeral by rw [reading, hvalue]]
        exact .numeral (List.nil_append _).symm (by rw [List.append_nil]; exact hpast.reached)
    | ok t =>
      rw [ok_bind]
      cases t with
      | nil =>
        rw [if_pos rfl,
          show reading U L D sharedStrings (.cell sheet cell) = .blank by rw [reading, hvalue]]
        exact Walks.append (a := [.blank]) (ih hrest hpast.blank hsilent)
      | cons c t =>
        rw [if_neg (List.cons_ne_nil c t)]
        cases hreference : cell.get "r" with
        | none =>
          rw [show reading U L D sharedStrings (.cell sheet cell) =
            .failed ⟨"CORRUPT_DOCUMENT", "XLSX text cell has no coordinate"⟩ by
              simp only [reading, hvalue, hreference]]
          exact .failed_here hpast
        | some reference =>
          cases reference with
          | nil =>
            rw [show reading U L D sharedStrings (.cell sheet cell) =
              .failed ⟨"CORRUPT_DOCUMENT", "XLSX text cell has no coordinate"⟩ by
                simp only [reading, hvalue, hreference]]
            exact .failed_here hpast
          | cons d reference =>
            dsimp only
            cases hlocation : cellLocation U L (d :: reference) with
            | error f =>
              rw [show reading U L D sharedStrings (.cell sheet cell) = .failed f by
                simp only [reading, hvalue, hreference, hlocation]]
              exact .failed_here hpast
            | ok place =>
              obtain ⟨cellRef, row, column⟩ := place
              have hreading : reading U L D sharedStrings (.cell sheet cell) =
                  .placed ⟨sheet, cellRef, row, column, c :: t⟩ := by
                simp only [reading, hvalue, hreference, hlocation]
              rw [hreading, typed, ok_bind]
              dsimp only
              have hroom := hpast.within_iff (p := ⟨sheet, cellRef, row, column, c :: t⟩)
              split
              · -- There is no room for the text: the loop stops with a warning.
                rename_i hfull
                refine .full (List.nil_append _).symm (w := { w with warnings := _ }) ?_ ?_ ?_
                · rw [List.append_nil]
                  exact ⟨hpast.reached, hpast.blocks, hpast.total⟩
                · rw [List.append_nil]
                  exact fun hwithin ↦ hroom.mp hwithin hfull
                · rw [hsilent]
                  rfl
              · rename_i hfits
                rw [(hfirst _ hreading).cellBlock, untyped, ok_bind]
                exact Walks.append (a := [.placed _])
                  (ih hrest (hpast.placed (hroom.mpr hfits)) hsilent)

/-- **The loop over the sheets.** -/
theorem walkSheets_walks {readPart : Str → Except ExtractionFailure XmlElement}
    {sharedStrings : List Str} {sheets : List (Str × Str)}
    (hsound : ∀ p, .placed p ∈ (sheets.flatMap (sheetItems readPart)).map
      (reading U L D sharedStrings) → Sound U p)
    (hpast : Past source limits start w) (hsilent : w.warnings = []) :
    Walks source limits start
      ((sheets.flatMap (sheetItems readPart)).map (reading U L D sharedStrings))
      (walkSheets U L D source limits readPart sharedStrings w sheets) := by
  induction sheets generalizing w start with
  | nil => exact .through (by rw [List.flatMap_nil, List.map_nil, List.append_nil]; exact hpast) hsilent
  | cons sheet sheets ih =>
    rw [List.flatMap_cons, List.map_append] at hsound ⊢
    have hrest := fun p hp ↦ hsound p (List.mem_append_right _ hp)
    have hfirst := fun p hp ↦ hsound p (List.mem_append_left _ hp)
    rw [walkSheets]
    cases hroot : readPart sheet.2 with
    | error f =>
      rw [sheetItems, hroot]
      exact .failed_here hpast
    | ok root =>
      rw [sheetItems, hroot] at hfirst
      dsimp only at hfirst
      rw [List.map_map] at hfirst
      have hcells := walkCells_walks hfirst hpast hsilent
      rw [sheetItems, hroot, typed, ok_bind]
      dsimp only
      rw [List.map_map]
      cases hwalk : walkCells U L D source limits sharedStrings sheet.1 w
          (descendants xlsxNamespaces "c" root) with
      | error e =>
        rw [hwalk] at hcells
        exact hcells.stopped (by rintro _ ⟨⟩)
      | ok v =>
        rw [hwalk] at hcells
        rw [ok_bind]
        by_cases hv : v.warnings = []
        · rw [if_neg (not_not.mpr hv)]
          cases hcells with
          | through past silent => exact Walks.append (ih hrest past silent)
          | full split past ends warned =>
            rw [warned] at hv
            cases hv
        · rw [if_pos hv]
          refine hcells.stopped fun w' hw' ↦ ?_
          obtain rfl := Except.ok.inj hw'
          exact hv

end Loops

/-! ## The result -/

/-- The result with the blocks of some texts. -/
def resultOf (source : Docx.Source) (ps : List Placed) (warnings : List TruncationWarning) :
    ExtractionResult :=
  ⟨source.sha256, source.profileHash, blocksOf source ps, warnings⟩

section Result

variable {U : Nfc} {source : Docx.Source} {limits : Limits} {ps : List Placed}
  {warnings : List TruncationWarning}

theorem Sound.blockHash {p : Placed} (h : Sound U p) (i : ℕ) {hash : Str}
    (hhash : anchorHash U source p = .ok hash) :
    Xlsx.blockHash U (resultOf source ps warnings) ⟨i, p.text, anchorOf source p⟩ = .ok hash := by
  rw [anchorHash, h.anchorFromText, ok_bind] at hhash
  rw [Xlsx.blockHash, check_bind_eq_ok, check_bind_eq_ok, textFingerprint_of_clean h.text, ok_bind,
    check_bind_eq_ok]
  exact ⟨rfl, rfl, rfl, hhash⟩

/-- The blocks of sound texts have the hashes of their anchors. -/
theorem exists_hashes (hsound : ∀ p ∈ ps, Sound U p) :
    ∃ hashes : List Str, ps.map (anchorHash U source) = hashes.map .ok ∧
      (resultOf source ps warnings).blocks.mapM (Xlsx.blockHash U (resultOf source ps warnings)) =
        .ok hashes := by
  suffices hall : ∀ (qs : List Placed), (∀ q ∈ qs, Sound U q) → ∀ n, ∃ hashes : List Str,
      qs.map (anchorHash U source) = hashes.map .ok ∧ List.Forall₂
        (fun x hash ↦ Xlsx.blockHash U (resultOf source ps warnings)
          ⟨x.2, x.1.text, anchorOf source x.1⟩ = .ok hash) (qs.zipIdx n) hashes by
    obtain ⟨hashes, hmap, hzip⟩ := hall ps hsound 0
    exact ⟨hashes, hmap, mapM_eq_ok.mpr (List.forall₂_map_left_iff.mpr hzip)⟩
  intro qs
  induction qs with
  | nil => exact fun _ n ↦ ⟨[], rfl, .nil⟩
  | cons q qs ih =>
    intro hqs n
    obtain ⟨hq, hrest⟩ := List.forall_mem_cons.mp hqs
    obtain ⟨hash, hhash⟩ := hq.exists_anchorHash source
    obtain ⟨hashes, hmap, hall⟩ := ih hrest (n + 1)
    exact ⟨hash :: hashes, by rw [List.map_cons, hhash, hmap, List.map_cons],
      .cons (hq.blockHash n hhash) hall⟩

/-- **Only the check for duplicates can fail.** -/
theorem validate_resultOf (hsound : ∀ p ∈ ps, Sound U p) (hne : ps ≠ [])
    (hwarnings : ∀ w ∈ warnings, ∀ ordinal ∈ w.blockOrdinal, ordinal < ps.length) :
    ∃ hashes : List Str, ps.map (anchorHash U source) = hashes.map .ok ∧
      (resultOf source ps warnings).validate U = (do
        check hashes.Nodup "successful extraction contains duplicate anchors"
        .ok (resultOf source ps warnings)) := by
  obtain ⟨hashes, hmap, hhashes⟩ := @exists_hashes U source ps warnings hsound
  have hcheck {c : Prop} [Decidable c] (m : String) (hc : c) : check c m = .ok () := check_eq_ok.mpr hc
  have hblocks : (resultOf source ps warnings).blocks ≠ [] := by
    rw [← List.length_pos_iff, resultOf, length_blocksOf]
    exact List.length_pos_iff.mpr hne
  have hordinals : (resultOf source ps warnings).blocks.map (·.ordinal) =
      List.range (resultOf source ps warnings).blocks.length := by
    rw [resultOf, length_blocksOf, blocksOf, List.map_map, List.range_eq_range']
    exact List.zipIdx_map_snd 0 ps
  have hlast : ∀ w ∈ (resultOf source ps warnings).warnings, ∀ ordinal ∈ w.blockOrdinal,
      ordinal < (resultOf source ps warnings).blocks.length := by
    rw [resultOf, length_blocksOf]
    exact hwarnings
  have hsource : IsSha256 (resultOf source ps warnings).sourceSha256 := source.isSha256
  have hprofile : IsSha256 (resultOf source ps warnings).configProfileHash := source.isProfile
  refine ⟨hashes, hmap, ?_⟩
  rw [ExtractionResult.validate, hcheck _ hsource, ok_bind, hcheck _ hprofile, ok_bind,
    hcheck _ hblocks, ok_bind, hcheck _ hordinals, ok_bind, hhashes, ok_bind]
  simp only [hcheck _ hlast, ok_bind]

end Result

/-! ## The end of an extraction -/

/-- What `extract` does behind its loops. -/
def finish (U : Nfc) (source : Docx.Source) (limits : Limits) (w : Walk) :
    Except XlsxError ExtractionResult :=
  if w.blocks = [] then
    .error (.failure ⟨"NO_EXTRACTABLE_TEXT", "XLSX contains no extractable cell text"⟩)
  else do
    let result ← untyped (ExtractionResult.validate U
      ⟨source.sha256, source.profileHash, w.blocks, w.warnings⟩)
    typed (result.validateBounds limits)

/-- Every exception is a typed failure, and the anchors of a result differ. -/
def Typed (x : Except XlsxError ExtractionResult) : Prop :=
  (∀ e, x ≠ .error (.exc e)) ∧ ∀ result, x = .ok result → (result.blocks.map (·.anchor)).Nodup

theorem typed_failure (f : ExtractionFailure) : Typed (.error (.failure f)) :=
  ⟨fun _ h ↦ (nomatch h), fun _ h ↦ (nomatch h)⟩

theorem map_anchor_blocksOf (source : Docx.Source) (ps : List Placed) :
    (blocksOf source ps).map (·.anchor) = ps.map (anchorOf source) := by
  rw [blocksOf, List.map_map]
  conv_rhs => rw [← List.zipIdx_map_fst 0 ps, List.map_map]
  rfl

section Finish

variable {U : Nfc} {source : Docx.Source} {limits : Limits} {kept : List Reading} {w : Walk}

/-- The result is given out where the hashes of the anchors differ. -/
theorem typed_finish_iff (hsound : ∀ p ∈ texts kept, Sound U p) (hpast : Past source limits kept w)
    (hwarnings : w.warnings = [] ∨ w.warnings = [⟨lastOrdinal w.blocks⟩]) :
    Typed (finish U source limits w) ↔ ((texts kept).map (anchorHash U source)).Nodup := by
  rw [finish]
  by_cases hnil : texts kept = []
  · have hblocks : w.blocks = [] := by
      rw [hpast.blocks, hnil]
      rfl
    rw [if_pos hblocks, hnil]
    exact iff_of_true (typed_failure _) List.nodup_nil
  have hblocks : w.blocks ≠ [] := by
    rw [hpast.blocks, ← List.length_pos_iff, length_blocksOf]
    exact List.length_pos_iff.mpr hnil
  have hlast : ∀ warning ∈ w.warnings, ∀ ordinal ∈ warning.blockOrdinal,
      ordinal < (texts kept).length := by
    have hlength : w.blocks.length = (texts kept).length := by rw [hpast.blocks, length_blocksOf]
    obtain h | h := hwarnings
    · rw [h]
      exact List.forall_mem_nil _
    · rw [h, List.forall_mem_singleton, lastOrdinal, if_neg hblocks]
      intro ordinal hordinal
      obtain rfl := Option.some.inj hordinal
      have := List.length_pos_iff.mpr hblocks
      omega
  obtain ⟨hashes, hmap, hvalidate⟩ := @validate_resultOf U source _ _ hsound hnil hlast
  have hnodup : ((texts kept).map (anchorHash U source)).Nodup ↔ hashes.Nodup := by
    rw [hmap]
    exact List.nodup_map_iff fun _ _ ↦ Except.ok.inj
  have hresult : (⟨source.sha256, source.profileHash, w.blocks, w.warnings⟩ : ExtractionResult) =
      resultOf source (texts kept) w.warnings := by rw [hpast.blocks, resultOf]
  rw [if_neg hblocks, hresult, hvalidate, hnodup]
  by_cases hhashes : hashes.Nodup
  · have hcheck : check hashes.Nodup "successful extraction contains duplicate anchors" = .ok () :=
      check_eq_ok.mpr hhashes
    refine iff_of_true ⟨fun e h ↦ ?_, fun result h ↦ ?_⟩ hhashes
    · rw [hcheck, ok_bind, untyped, ok_bind] at h
      cases hbounds : (resultOf source (texts kept) w.warnings).validateBounds limits with
      | ok result =>
        rw [hbounds] at h
        cases h
      | error f =>
        rw [hbounds] at h
        cases h
    · rw [hcheck, ok_bind, untyped, ok_bind, typed_eq_ok, ExtractionResult.validateBounds] at h
      simp only [bind_eq_ok] at h
      obtain ⟨-, -, -, -, h⟩ := h
      obtain rfl := Except.ok.inj h
      rw [resultOf, map_anchor_blocksOf]
      -- Texts with different hashes have different anchors.
      have hfunction : (texts kept).map (anchorHash U source) = ((texts kept).map (anchorOf source)).map
          fun anchor ↦ canonicalSha256 U Protocol.collision anchor.toDict := by
        rw [List.map_map]
        refine List.map_congr_left fun p hp ↦ ?_
        rw [anchorHash, (hsound p hp).anchorFromText, ok_bind]
        rfl
      exact List.Nodup.of_map _ (hfunction ▸ hnodup.mpr hhashes)
  · refine iff_of_false (fun h ↦ ?_) hhashes
    have hcheck : check hashes.Nodup "successful extraction contains duplicate anchors" =
        .error (.valueError "successful extraction contains duplicate anchors") := if_neg hhashes
    refine h.1 (.valueError "successful extraction contains duplicate anchors") ?_
    rw [hcheck]
    rfl

end Finish

/-! ## When every exception is a typed failure -/

/-- The loops go past some readings, up to the end or to a text that there is no room for. -/
structure Kept (limits : Limits) (readings kept : List Reading) : Prop where
  reached : Reached limits kept
  rest : readings = kept ∨
    ∃ p after, readings = kept ++ .placed p :: after ∧ Ends limits kept (.placed p)

section Kept

variable {limits : Limits} {readings kept kept' before after : List Reading} {r : Reading}

theorem Kept.unique (h : Kept limits readings kept) (h' : Kept limits readings kept') : kept = kept' := by
  obtain rfl | ⟨p, after, hsplit, hends⟩ := h.rest
  · obtain hsame | ⟨p, after, hsplit, hends⟩ := h'.rest
    · exact hsame
    · exact absurd (hsplit ▸ h.reached) hends.not_reached
  · obtain hsame | ⟨p', after', hsplit', hends'⟩ := h'.rest
    · exact absurd (hsplit ▸ hsame ▸ h'.reached) hends.not_reached
    · exact (Ends.unique (hsplit.symm.trans hsplit') h.reached h'.reached hends hends').1

/-- Nothing that is kept stands behind a reading at which the loops end. -/
theorem Kept.placed_of_ends (h : Kept limits readings kept) (hsplit : readings = before ++ r :: after)
    (hreached : Reached limits before) (hends : Ends limits before r) : ∃ p, r = .placed p := by
  obtain hall | ⟨p, after', hsplit', hends'⟩ := h.rest
  · exact absurd (hsplit ▸ hall ▸ h.reached) hends.not_reached
  · exact ⟨p, (Ends.unique (hsplit.symm.trans hsplit') hreached h.reached hends hends').2⟩

end Kept

section Readings

variable {U : Nfc} {L : Letters} {D : Digits}

/-- A numeral fails where the index is made of digits, and is no numeral. -/
theorem cellValue_eq_exc {sharedStrings : List Str} {cell : XmlElement} :
    (∃ e, cellValue U D sharedStrings cell = .error (.exc e)) ↔ BadNumeral D cell := by
  rw [BadNumeral, cellValue]
  by_cases hshared : cell.get "t" = some (lit "s")
  · rw [if_pos hshared]
    cases hdigits : isDigitText D (rawIndex cell) with
    | false => simp [corrupt]
    | true =>
      rw [if_neg Bool.true_eq_false.mp]
      cases hint : D.int (rawIndex cell) with
      | none => simp [hshared]
      | some index =>
        cases hvalue : sharedStrings[index]? with
        | none => simp [hvalue, corrupt]
        | some value => simp [hvalue]
  · rw [if_neg hshared]
    refine iff_of_false (fun ⟨e, h⟩ ↦ ?_) fun h ↦ hshared h.1
    split at h
    · exact nomatch h
    · split at h
      · exact nomatch h
      · exact nomatch h

theorem reading_eq_numeral {sharedStrings : List Str} {item : Item} :
    reading U L D sharedStrings item = .numeral ↔
      ∃ sheet cell, item = .cell sheet cell ∧ BadNumeral D cell := by
  cases item with
  | unreadable f => simp [reading]
  | cell sheet cell =>
    simp only [Item.cell.injEq]
    constructor
    · intro h
      refine ⟨sheet, cell, ⟨rfl, rfl⟩, (@cellValue_eq_exc U D sharedStrings cell).mp ?_⟩
      rw [reading] at h
      split at h
      · exact nomatch h
      · next e hvalue => exact ⟨e, hvalue⟩
      · exact nomatch h
      · split at h
        · exact nomatch h
        · exact nomatch h
        · split at h
          · exact nomatch h
          · exact nomatch h
    · rintro ⟨_, _, ⟨rfl, rfl⟩, hbad⟩
      obtain ⟨e, hvalue⟩ := (@cellValue_eq_exc U D sharedStrings _).mpr hbad
      rw [reading, hvalue]

/-- What is read of a parsed cell is sound. -/
theorem sound_of_reading (hU : Standard U) {sharedStrings : List Str}
    (hshared : ∀ s ∈ sharedStrings, Clean U s) {sheet : Str}
    (hsheet : Clean U sheet ∧ sheet ≠ [] ∧ sheet.length ≤ 128) {cell : XmlElement}
    (hcell : Parsed cell) {p : Placed}
    (h : reading U L D sharedStrings (.cell sheet cell) = .placed p) : Sound U p := by
  rw [reading] at h
  split at h
  · exact nomatch h
  · exact nomatch h
  · exact nomatch h
  · next c t hvalue =>
    split at h
    · exact nomatch h
    · exact nomatch h
    · split at h
      · exact nomatch h
      · next cellRef row column hlocation =>
        obtain rfl := Reading.placed.inj h
        obtain ⟨-, letters, digits, hreads⟩ := cellLocation_eq_ok.mp hlocation
        exact ⟨clean_cellValue hU hshared hcell hvalue, List.cons_ne_nil _ _, hsheet.1, hsheet.2.1,
          hsheet.2.2, letters, digits, hreads⟩

end Readings

section Conditions

variable (U : Nfc) (L : Letters) (D : Digits) (source : Docx.Source) (limits : Limits)
  (sharedStrings : List Str) (items : List Item)

/-- Every index of a shared string that is reached, and made of digits, is a numeral. -/
def IndexesRead : Prop :=
  ∀ before sheet cell after, items = before ++ .cell sheet cell :: after →
    Reached limits (before.map (reading U L D sharedStrings)) → ¬BadNumeral D cell

/-- The hashes of the anchors of what is kept are different. -/
def AnchorsDiffer : Prop :=
  ∀ kept, Kept limits (items.map (reading U L D sharedStrings)) kept →
    ((texts kept).map (anchorHash U source)).Nodup

end Conditions

section Typed

variable {U : Nfc} {L : Letters} {D : Digits} {source : Docx.Source} {limits : Limits}

theorem sound_of_mem_items (hU : Standard U) {workbook rels : XmlElement}
    {readPart : Str → Except ExtractionFailure XmlElement} {sharedStrings : List Str}
    (hworkbook : Parsed workbook) (hshared : ∀ s ∈ sharedStrings, Clean U s)
    (hparts : ∀ name root, readPart name = .ok root → Parsed root) {sheets : List (Str × Str)}
    (hsheets : sheetParts U workbook rels = .ok sheets) (p : Placed)
    (hp : .placed p ∈ (sheets.flatMap (sheetItems readPart)).map (reading U L D sharedStrings)) :
    Sound U p := by
  obtain ⟨item, hitem, hreading⟩ := List.mem_map.mp hp
  obtain ⟨sheet, hsheet, hitem⟩ := List.mem_flatMap.mp hitem
  rw [sheetItems] at hitem
  split at hitem
  · obtain rfl := List.mem_singleton.mp hitem
    exact nomatch hreading
  · next root hroot =>
    obtain ⟨cell, hcell, rfl⟩ := List.mem_map.mp hitem
    exact sound_of_reading hU hshared (clean_sheetParts hU hworkbook hsheets sheet hsheet)
      ((hparts _ _ hroot).descendants cell hcell) hreading

/-- The loops and what is behind them, for the sheets of a workbook. -/
theorem typed_walk_iff {sharedStrings : List Str} {items : List Item}
    (hsound : ∀ p, .placed p ∈ items.map (reading U L D sharedStrings) → Sound U p)
    {x : Except XlsxError Walk}
    (hx : Walks source limits [] (items.map (reading U L D sharedStrings)) x) :
    Typed (x >>= finish U source limits) ↔
      IndexesRead U L D limits sharedStrings items ∧
        AnchorsDiffer U L D source limits sharedStrings items := by
  -- A walk that ends at some place ends at no index before.
  have hindexes {kept : List Reading} (hkept : Kept limits (items.map (reading U L D sharedStrings)) kept) :
      IndexesRead U L D limits sharedStrings items := by
    intro before sheet cell after hsplit hreached hbad
    have hreading : reading U L D sharedStrings (.cell sheet cell) = .numeral :=
      reading_eq_numeral.mpr ⟨sheet, cell, rfl, hbad⟩
    rw [hsplit, List.map_append, List.map_cons, hreading] at hkept
    obtain ⟨p, hp⟩ := hkept.placed_of_ends rfl hreached trivial
    exact nomatch hp
  have hfinish {w : Walk} {kept : List Reading} (hpast : Past source limits kept w)
      (hkept : Kept limits (items.map (reading U L D sharedStrings)) kept)
      (hwarnings : w.warnings = [] ∨ w.warnings = [⟨lastOrdinal w.blocks⟩]) :
      Typed (finish U source limits w) ↔ IndexesRead U L D limits sharedStrings items ∧
        AnchorsDiffer U L D source limits sharedStrings items := by
    have hall : ∀ p ∈ texts kept, Sound U p := by
      intro p hp
      obtain ⟨r, hr, htext⟩ := List.mem_filterMap.mp hp
      have hplaced : r = .placed p := by
        cases r with
        | placed q => exact congrArg Reading.placed (Option.some.inj htext)
        | _ => exact nomatch htext
      refine hsound p ?_
      rw [← hplaced]
      obtain hsame | ⟨q, after, hsplit, -⟩ := hkept.rest
      · rwa [hsame]
      · rw [hsplit]
        exact List.mem_append_left _ hr
    rw [typed_finish_iff hall hpast hwarnings]
    refine ⟨fun hnodup ↦ ⟨hindexes hkept, fun kept' hkept' ↦ ?_⟩, fun h ↦ h.2 kept hkept⟩
    rwa [hkept'.unique hkept]
  cases hx with
  | through past silent => exact hfinish past ⟨past.reached, .inl rfl⟩ (.inl silent)
  | full split past ends warned =>
    exact hfinish past ⟨past.reached, .inr ⟨_, _, split, ends⟩⟩ (.inr warned)
  | failed split reached =>
    refine iff_of_true (typed_failure _) ⟨fun before sheet cell after hsplit hreached hbad ↦ ?_,
      fun kept hkept ↦ ?_⟩
    · have hreading : reading U L D sharedStrings (.cell sheet cell) = .numeral :=
        reading_eq_numeral.mpr ⟨sheet, cell, rfl, hbad⟩
      rw [hsplit, List.map_append, List.map_cons, hreading] at split
      exact nomatch (Ends.unique split hreached reached trivial trivial).2
    · obtain ⟨p, hp⟩ := hkept.placed_of_ends split reached trivial
      exact nomatch hp
  | @numeral before e after split reached =>
    refine iff_of_false (fun h ↦ h.1 e rfl) fun h ↦ ?_
    obtain ⟨front, back, rfl, rfl, hback⟩ := List.map_eq_append_iff.mp split
    obtain ⟨item, rest, rfl, hitem, -⟩ := List.map_eq_cons_iff.mp hback
    obtain ⟨sheet, cell, rfl, hbad⟩ := reading_eq_numeral.mp hitem
    exact h.1 front sheet cell rest rfl reached hbad

theorem typed_extract_of_sheets (hU : Standard U) {workbook rels : XmlElement}
    {shared : Option XmlElement} {readPart : Str → Except ExtractionFailure XmlElement}
    (hworkbook : Parsed workbook) (hshared : ∀ root ∈ shared, Parsed root)
    (hparts : ∀ name root, readPart name = .ok root → Parsed root) {sheets : List (Str × Str)}
    (hsheets : sheetParts U workbook rels = .ok sheets) :
    Typed (extract U L D source limits workbook rels shared readPart) ↔
      IndexesRead U L D limits (shared.elim [] (parseSharedStrings U))
          (sheets.flatMap (sheetItems readPart)) ∧
        AnchorsDiffer U L D source limits (shared.elim [] (parseSharedStrings U))
          (sheets.flatMap (sheetItems readPart)) := by
  have hclean : ∀ s ∈ shared.elim [] (parseSharedStrings U), Clean U s := by
    cases shared with
    | none => exact fun s hs ↦ absurd hs List.not_mem_nil
    | some root => exact clean_parseSharedStrings hU (hshared root rfl)
  have hsound := sound_of_mem_items (L := L) (D := D) hU hworkbook hclean hparts hsheets
  have hstart : Past source limits [] ⟨[], 0, []⟩ :=
    ⟨⟨List.forall_mem_nil _, Nat.zero_le _, Nat.zero_le _⟩, rfl, rfl⟩
  have hextract : extract U L D source limits workbook rels shared readPart =
      walkSheets U L D source limits readPart (shared.elim [] (parseSharedStrings U)) ⟨[], 0, []⟩
        sheets >>= finish U source limits := by
    rw [extract, hsheets]
    rfl
  rw [hextract, typed_walk_iff hsound (walkSheets_walks hsound hstart rfl)]

end Typed

/-- **When every exception of the extractor is a typed failure**, and the anchors of every result differ:
no index that is reached is made of digits without being a numeral, and the hashes of the anchors of the
cells that are kept are different. -/
theorem extract_typed_iff (U : Nfc) (L : Letters) (D : Digits) (source : Docx.Source) (limits : Limits)
    (workbook rels : XmlElement) (shared : Option XmlElement)
    (readPart : Str → Except ExtractionFailure XmlElement) (hU : Standard U)
    (hworkbook : Parsed workbook) (hshared : ∀ root ∈ shared, Parsed root)
    (hparts : ∀ name root, readPart name = .ok root → Parsed root) :
    Typed (extract U L D source limits workbook rels shared readPart) ↔
      ∀ sheets, sheetParts U workbook rels = .ok sheets →
        IndexesRead U L D limits (shared.elim [] (parseSharedStrings U))
            (sheets.flatMap (sheetItems readPart)) ∧
          AnchorsDiffer U L D source limits (shared.elim [] (parseSharedStrings U))
            (sheets.flatMap (sheetItems readPart)) := by
  cases hsheets : sheetParts U workbook rels with
  | error f =>
    rw [extract, hsheets]
    exact iff_of_true (typed_failure f) (by rintro _ ⟨⟩)
  | ok sheets =>
    rw [typed_extract_of_sheets hU hworkbook hshared hparts hsheets]
    constructor
    · rintro h _ ⟨⟩
      exact h
    · exact fun h ↦ h sheets rfl

/-! ### A workbook with one sheet -/

theorem standard_ascii : Standard Nfc.ascii := ⟨fun _ _ _ _ ↦ rfl, fun _ h ↦ h⟩

theorem parsed_oneSheet : Parsed oneSheet := by
  refine .mk (List.forall_mem_nil _) (by decide) (List.forall_mem_singleton.mpr ?_)
  refine .mk (List.forall_mem_nil _) (by decide) (List.forall_mem_singleton.mpr ?_)
  exact .mk (by decide +kernel) (by decide) (List.forall_mem_nil _)

theorem parsed_valueCell {reference kind value : String}
    (h : Scalar (lit reference) ∧ Scalar (lit kind) ∧ Scalar (lit value)) :
    Parsed (valueCell reference kind value) := by
  refine .mk ?_ (by decide) (List.forall_mem_singleton.mpr ?_)
  · rw [List.forall_mem_cons, List.forall_mem_singleton]
    exact ⟨h.1, h.2.1⟩
  · exact .mk (List.forall_mem_nil _) h.2.2 (List.forall_mem_nil _)

theorem parsed_worksheet {cells : List XmlElement} (h : ∀ cell ∈ cells, Parsed cell) :
    Parsed (worksheet cells) := by
  refine .mk (List.forall_mem_nil _) (by decide) (List.forall_mem_singleton.mpr ?_)
  exact .mk (List.forall_mem_nil _) (by decide) h

theorem sheetParts_oneSheet :
    sheetParts Nfc.ascii oneSheet oneSheetRels = .ok [(lit "Plan", lit "xl/sheet.xml")] := by
  decide +kernel

/-- One cell alone is no trouble. -/
theorem extract_typed_iff_oneCell :
    Typed (extractCells ⟨10, 10, 10⟩ [valueCell "A1" "n" "x"]) := by
  have hcell : Parsed (valueCell "A1" "n" "x") := parsed_valueCell (by decide +kernel)
  refine (extract_typed_iff Nfc.ascii asciiLetters asciiDigits someSource _ oneSheet oneSheetRels none _
    standard_ascii parsed_oneSheet nofun ?_).mpr fun sheets hsheets ↦ ?_
  · rintro name root ⟨⟩
    exact parsed_worksheet (List.forall_mem_singleton.mpr hcell)
  obtain rfl := Except.ok.inj (sheetParts_oneSheet.symm.trans hsheets)
  constructor
  · intro before sheet cell after hsplit _ hbad
    have hmem : Item.cell sheet cell ∈ [Item.cell (lit "Plan") (valueCell "A1" "n" "x")] := by
      refine (congrArg (Item.cell sheet cell ∈ ·) hsplit).mpr ?_
      exact List.mem_append_right _ List.mem_cons_self
    obtain ⟨-, rfl⟩ := Item.cell.inj (List.mem_singleton.mp hmem)
    exact absurd hbad.1 (by decide +kernel)
  · intro kept hkept
    have hlength : kept.length ≤ 1 := by
      obtain hsame | ⟨p, after, hsplit, -⟩ := hkept.rest
      · exact le_of_eq (congrArg List.length hsame).symm
      · have hone : 1 = kept.length + (after.length + 1) := by
          rw [← List.length_cons, ← List.length_append, ← hsplit]
          rfl
        omega
    have htexts : (texts kept).length ≤ 1 := (List.length_filterMap_le _ _).trans hlength
    cases hkeptTexts : texts kept with
    | nil => exact List.nodup_nil
    | cons p rest =>
      rw [hkeptTexts, List.length_cons] at htexts
      obtain rfl := List.length_eq_zero_iff.mp (Nat.le_zero.mp (Nat.le_of_succ_le_succ htexts))
      exact List.nodup_singleton _

/-- The digits of ASCII, and the superscript two, which is a digit without a decimal value. -/
def superscriptDigits : Digits where
  isDigit c := decide (48 ≤ c.val ∧ c.val ≤ 57 ∨ c.val = 0xB2)
  decimal := asciiDigits.decimal
  isDigit_ascii c hc := by
    rw [decide_eq_true_iff]
    omega
  decimal_ascii := asciiDigits.decimal_ascii

/-- A cell that is there twice. -/
def repeatedCell : XmlElement := valueCell "A1" "n" "x"

/-- A cell with a superscript as an index. -/
def superscriptCell : XmlElement := valueCell "A1" "s" "²"

/-- Both of them raise a `ValueError`. -/
theorem extract_raises :
    (Parsed (worksheet [repeatedCell, repeatedCell]) ∧
      ¬Typed (extractCells ⟨10, 10, 10⟩ [repeatedCell, repeatedCell])) ∧
    Parsed (worksheet [superscriptCell]) ∧
      ¬Typed (extract Nfc.ascii asciiLetters superscriptDigits someSource ⟨10, 10, 10⟩ oneSheet
        oneSheetRels none fun _ ↦ .ok (worksheet [superscriptCell])) := by
  have hshared : ∀ root ∈ (none : Option XmlElement), Parsed root := nofun
  constructor
  · have hcell : Parsed repeatedCell := parsed_valueCell (by decide +kernel)
    have hsheet : Parsed (worksheet [repeatedCell, repeatedCell]) := by
      refine parsed_worksheet ?_
      rw [List.forall_mem_cons, List.forall_mem_singleton]
      exact ⟨hcell, hcell⟩
    refine ⟨hsheet, fun h ↦ ?_⟩
    rw [extractCells, typed_extract_of_sheets standard_ascii parsed_oneSheet hshared
      (fun _ _ hroot ↦ Except.ok.inj hroot ▸ hsheet) sheetParts_oneSheet] at h
    -- Both cells are kept, and their anchors are the same.
    let place : Placed := ⟨lit "Plan", lit "A1", 1, 1, lit "x"⟩
    have hreadings : [Item.cell (lit "Plan") repeatedCell, .cell (lit "Plan") repeatedCell].map
        (reading Nfc.ascii asciiLetters asciiDigits []) = [.placed place, .placed place] := by
      decide +kernel
    have hkept : Kept ⟨10, 10, 10⟩ [.placed place, .placed place] [.placed place, .placed place] :=
      ⟨⟨by simp, by decide +kernel, by decide +kernel⟩, .inl rfl⟩
    have hnodup := h.2 [.placed place, .placed place] (hreadings ▸ hkept)
    exact (List.nodup_cons.mp hnodup).1 List.mem_cons_self
  · have hcell : Parsed superscriptCell := parsed_valueCell (by decide +kernel)
    have hsheet : Parsed (worksheet [superscriptCell]) :=
      parsed_worksheet (List.forall_mem_singleton.mpr hcell)
    refine ⟨hsheet, fun h ↦ ?_⟩
    rw [typed_extract_of_sheets standard_ascii parsed_oneSheet hshared
      (fun _ _ hroot ↦ Except.ok.inj hroot ▸ hsheet) sheetParts_oneSheet] at h
    have hreached : Reached ⟨10, 10, 10⟩ [] := ⟨List.forall_mem_nil _, Nat.zero_le _, Nat.zero_le _⟩
    exact h.1 [] (lit "Plan") superscriptCell [] rfl hreached (by decide +kernel)

end Xlsx

end MeetingRag
