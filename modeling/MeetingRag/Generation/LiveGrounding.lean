import MeetingRag.Generation.Grounding

/-!
# The two ways of grounding

A summary from the live provider is grounded by itself; reviewed fixture output is held to a catalog of
approved assertions as well. What the live way accepts quotes eligible anchors only. Everything that the
strict way accepts passes the live way with the same result, since the catalog decides nothing but
whether an item goes through.
-/

open Outcome Py

namespace MeetingRag

section

variable {word : CodePoint → Bool} {anchors : List RuntimeSourceAnchor}

/-- An anchor that a summary may rest on. -/
structure EligibleAnchor (word : CodePoint → Bool) (anchor : RuntimeSourceAnchor) : Prop where
  factual : anchor.classification = lit "factual_claim"
  content : isInstructionLikeContent word anchor.exactQuote = false

/-- A support takes its quote from an eligible anchor, at the place that it gives. -/
def EligibleSupport (word : CodePoint → Bool) (anchors : List RuntimeSourceAnchor)
    (s : GroundedSummarySupport) : Prop :=
  ∃ anchor ∈ anchors, anchor.id = s.sourceAnchorId ∧
    s.exactQuote = slice s.start s.stop anchor.exactQuote ∧ EligibleAnchor word anchor

theorem eligibleAnchor_of_safe {anchor : RuntimeSourceAnchor} {u : Unit}
    (h : assertAnchorIsSummarySafe word anchor = .ok u) : EligibleAnchor word anchor := by
  obtain ⟨hsafe, h⟩ := require_bind_eq_ok.mp h
  rw [not_or, Bool.not_eq_true] at hsafe
  exact ⟨require_eq_ok.mp h, hsafe.2⟩

theorem groundSupport_eligible {supports supports' : List GroundedSummarySupport}
    {support : SummarySupportCandidate}
    (h : groundSupport word anchors supports support = .ok supports')
    (hsupports : ∀ s ∈ supports, EligibleSupport word anchors s) :
    ∀ s ∈ supports', EligibleSupport word anchors s := by
  obtain ⟨anchor, hanchor, h⟩ := bind_eq_ok.mp h
  obtain ⟨_, hsafe, h⟩ := bind_eq_ok.mp h
  obtain ⟨-, h⟩ := require_bind_eq_ok.mp h
  obtain ⟨start, hstart, h⟩ := bind_eq_ok.mp h
  rw [selectAnchor] at hanchor
  split at hanchor
  case h_2 => cases hanchor
  next found hfound =>
    cases hanchor
    rw [locate] at hstart
    split at hstart
    case h_2 => cases hstart
    next place hplace =>
      cases hstart
      rw [← Except.ok.inj h]
      refine List.forall_mem_append.mpr ⟨hsupports, List.forall_mem_singleton.mpr ?_⟩
      exact ⟨anchor, List.mem_of_find?_eq_some hfound, of_decide_eq_true (List.find?_some hfound :),
        (slice_of_find hplace).symm, eligibleAnchor_of_safe hsafe⟩

/-- An item rests on eligible anchors, and declares these and no others. -/
structure EligibleItem (word : CodePoint → Bool) (anchors : List RuntimeSourceAnchor)
    (item : GroundedSummaryItem) : Prop where
  declared : ∀ id, id ∈ item.sourceAnchorIds ↔ ∃ s ∈ item.supports, s.sourceAnchorId = id
  unique : item.sourceAnchorIds.Nodup
  supports : ∀ s ∈ item.supports, EligibleSupport word anchors s

theorem groundItem_eligible {approved : SummaryItemCandidate → Prop} [DecidablePred approved]
    {item : SummaryItemCandidate} {grounded : GroundedSummaryItem}
    (h : groundItem word anchors approved item = .ok grounded) :
    EligibleItem word anchors grounded := by
  have hsound := groundItem_sound h
  obtain ⟨-, -, h⟩ := bind_eq_ok.mp h
  obtain ⟨-, h⟩ := require_bind_eq_ok.mp h
  obtain ⟨supports, hsupports, h⟩ := bind_eq_ok.mp h
  obtain ⟨-, h⟩ := require_bind_eq_ok.mp h
  obtain ⟨-, h⟩ := require_bind_eq_ok.mp h
  refine ⟨fun id ↦ (hsound.agree id).trans List.mem_map, hsound.ids, ?_⟩
  rw [← Except.ok.inj h]
  exact foldlM_invariant (fun _ supports ↦ ∀ s ∈ supports, EligibleSupport word anchors s) hsupports
    (List.forall_mem_nil _) fun _ _ _ _ hdone hstep ↦ groundSupport_eligible hstep hdone

/-! ## From one catalog to a wider one -/

section Wider

variable {approved approved' : SummaryItemCandidate → Prop} [DecidablePred approved]
  [DecidablePred approved']

theorem groundItem_of_imp (himp : ∀ item, approved item → approved' item)
    {item : SummaryItemCandidate} {grounded : GroundedSummaryItem}
    (h : groundItem word anchors approved item = .ok grounded) :
    groundItem word anchors approved' item = .ok grounded := by
  obtain ⟨_, htext, h⟩ := bind_eq_ok.mp h
  obtain ⟨hunique, h⟩ := require_bind_eq_ok.mp h
  obtain ⟨supports, hsupports, h⟩ := bind_eq_ok.mp h
  obtain ⟨hagree, h⟩ := require_bind_eq_ok.mp h
  obtain ⟨happroved, h⟩ := require_bind_eq_ok.mp h
  rw [groundItem, htext, ok_bind, require_of hunique, ok_bind, hsupports, ok_bind, require_of hagree,
    ok_bind, require_of (himp item happroved), ok_bind, h]

theorem groundSection_of_imp (himp : ∀ item, approved item → approved' item)
    {part : SummarySectionCandidate} {grounded : GroundedSummarySection}
    (h : groundSection word anchors approved part = .ok grounded) :
    groundSection word anchors approved' part = .ok grounded := by
  obtain ⟨_, hheading, h⟩ := bind_eq_ok.mp h
  obtain ⟨items, hitems, h⟩ := bind_eq_ok.mp h
  have hwider : part.items.mapM (groundItem word anchors approved') = .ok items :=
    mapM_eq_ok.mpr ((mapM_eq_ok.mp hitems).imp fun _ _ hitem ↦ groundItem_of_imp himp hitem)
  rw [groundSection, hheading, ok_bind, hwider, ok_bind, h]

end Wider

/-- A summary cannot be grounded in nothing. -/
theorem SoundSummary.anchors_ne_nil {summary : GroundedSummary} (h : SoundSummary anchors summary) :
    anchors ≠ [] := by
  obtain ⟨part, hpart⟩ := List.exists_mem_of_ne_nil _ h.nonempty
  obtain ⟨item, hitem⟩ := List.exists_mem_of_ne_nil _ (h.sections part hpart).nonempty
  have hsound := (h.sections part hpart).items item hitem
  obtain ⟨s, hs⟩ := List.exists_mem_of_ne_nil _ hsound.supported
  obtain ⟨anchor, hanchor, -⟩ := (hsound.supports s hs).quoted
  exact List.ne_nil_of_mem hanchor

theorem groundLiveSummary_of_groundSummary {candidate : SummaryCandidate}
    {approvedAssertions : List ApprovedSummaryAssertion} {summary : GroundedSummary}
    (h : groundSummary word anchors candidate approvedAssertions = .ok summary) :
    groundLiveSummary word candidate anchors = .ok summary := by
  have hne := (groundSummary_sound h).anchors_ne_nil
  obtain ⟨-, h⟩ := require_bind_eq_ok.mp h
  obtain ⟨-, h⟩ := require_bind_eq_ok.mp h
  obtain ⟨_, hdistinct, h⟩ := bind_eq_ok.mp h
  obtain ⟨sections, hsections, h⟩ := bind_eq_ok.mp h
  have hlive : candidate.sections.mapM (groundSection word anchors fun _ ↦ True) = .ok sections :=
    mapM_eq_ok.mpr ((mapM_eq_ok.mp hsections).imp fun _ _ hpart ↦
      groundSection_of_imp (fun _ _ ↦ trivial) hpart)
  rw [groundLiveSummary, hdistinct, ok_bind, require_of hne, ok_bind, hlive, ok_bind, h]

/-- **Live grounding is sound, and extends the strict one.** -/
theorem liveGrounding_sound_extends (word : CodePoint → Bool) (anchors : List RuntimeSourceAnchor)
    (candidate : SummaryCandidate) :
    (∀ summary, groundLiveSummary word candidate anchors = .ok summary →
      (anchors.map (·.id)).Nodup ∧
        ∀ part ∈ summary.sections, ∀ item ∈ part.items, EligibleItem word anchors item) ∧
    ∀ approvedAssertions summary,
      groundSummary word anchors candidate approvedAssertions = .ok summary →
        groundLiveSummary word candidate anchors = .ok summary := by
  refine ⟨fun summary h ↦ ?_, fun _ _ h ↦ groundLiveSummary_of_groundSummary h⟩
  obtain ⟨_, hdistinct, h⟩ := bind_eq_ok.mp h
  obtain ⟨-, h⟩ := require_bind_eq_ok.mp h
  obtain ⟨sections, hsections, h⟩ := bind_eq_ok.mp h
  refine ⟨require_eq_ok.mp hdistinct, ?_⟩
  rw [← Except.ok.inj h]
  intro part hpart item hitem
  obtain ⟨_, -, hground⟩ := exists_of_mem_mapM hsections hpart
  obtain ⟨_, -, hground⟩ := bind_eq_ok.mp hground
  obtain ⟨items, hitems, hground⟩ := bind_eq_ok.mp hground
  rw [← Except.ok.inj hground] at hitem
  obtain ⟨_, -, hitem⟩ := exists_of_mem_mapM hitems hitem
  exact groundItem_eligible hitem

end

/-! ### Two quotes of one anchor -/

def costAnchor : RuntimeSourceAnchor :=
  ⟨1, 2, lit "The budget is 300. It ends in May.", lit "factual_claim", lit "paragraph", none,
    by decide, factualClaim_not_blank, paragraph_not_blank, unit_none⟩

def costSupports : List SummarySupportCandidate :=
  [⟨1, lit "ends in May", by decide⟩, ⟨1, lit "budget is 300", by decide⟩]

def costCandidate : SummaryCandidate :=
  ⟨[⟨lit "Budget", [⟨lit "300 until May", [1], costSupports, by decide, List.cons_ne_nil _ _,
    List.cons_ne_nil _ _⟩], by decide, List.cons_ne_nil _ _⟩], List.cons_ne_nil _ _⟩

def costSummary : GroundedSummary :=
  ⟨[⟨lit "Budget", [⟨lit "300 until May", [1],
    [⟨1, lit "ends in May", 22, 33⟩, ⟨1, lit "budget is 300", 4, 17⟩]⟩]⟩]⟩

theorem liveGrounding_sound_extends_cost :
    groundLiveSummary asciiWord costCandidate [costAnchor] = .ok costSummary ∧
      ∀ part ∈ costSummary.sections, ∀ item ∈ part.items,
        EligibleItem asciiWord [costAnchor] item := by
  obtain ⟨hsound, hextends⟩ := liveGrounding_sound_extends asciiWord [costAnchor] costCandidate
  have hlive := hextends
    [⟨lit "300 until May", costSupports, by decide, List.cons_ne_nil _ _⟩] costSummary
    (by decide +kernel)
  exact ⟨hlive, (hsound costSummary hlive).2⟩

end MeetingRag
