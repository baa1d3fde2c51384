import MeetingRag.Documents.Reviews

/-!
# What a suggestion is checked for

The service checks a suggestion of a member before it inserts it, and the database checks the row again:
the driver its texts, the trigger its pins, the table its columns. What the service lets through the
database takes, with two exceptions in the texts: a NUL, and a target of white space only, which is not
empty before it is stripped.
-/

open Outcome Py Table Text

namespace MeetingRag

namespace Reviews

/-! ## What a call does -/

/-- The tables with one more row and its event. -/
def ReviewTables.add (t : ReviewTables) (r : ReviewRow) (e : AuditEvent) : ReviewTables :=
  { t with
    suggestions := t.suggestions ++ [r]
    activity := { t.activity with auditEvents := appendEvent e t.activity.auditEvents } }

/-- The tables with one row settled, and the event of it. -/
def ReviewTables.settled (t : ReviewTables) (id : UUID) (decision : String) (actorId : UUID)
    (now : Timestamp) (e : AuditEvent) : ReviewTables :=
  { t with
    suggestions := updateWhere (·.suggestion.id = id) (settle decision actorId now) t.suggestions
    activity := { t.activity with auditEvents := appendEvent e t.activity.auditEvents } }

section Calls

variable {t t' : ReviewTables} {d : ReportRows} {r : ReviewRow} {e : AuditEvent}

theorem recordEvent_eq (e : AuditEvent) (t : ReviewTables) :
    recordEvent e t = .ok { t with
      activity := { t.activity with auditEvents := appendEvent e t.activity.auditEvents } } := by
  rw [recordEvent, record_nil]
  rfl

theorem appendRow_recordEvent_eq_ok :
    (do let t ← appendRow r t; recordEvent e t) = .ok t' ↔
      (∀ r' ∈ t.suggestions, r'.suggestion.id ≠ r.suggestion.id) ∧ t' = t.add r e := by
  simp only [appendRow, bind_assoc, bind_eq_ok, insertUnique_eq_ok, ok_bind, recordEvent_eq,
    Except.ok.injEq]
  constructor
  · rintro ⟨rows, ⟨hfresh, rfl⟩, rfl⟩
    exact ⟨hfresh, rfl⟩
  · rintro ⟨hfresh, rfl⟩
    exact ⟨_, ⟨hfresh, rfl⟩, rfl⟩

theorem enforceReportSuggestionProvenance_eq_ok {s : SuggestionRow} {w : Unit} :
    enforceReportSuggestionProvenance d s = .ok w ↔ Pinned d s := by
  rw [enforceReportSuggestionProvenance, require_bind_eq_ok, require_bind_eq_ok, require_eq_ok]
  exact ⟨fun ⟨hsession, hhash, hanchor⟩ ↦ ⟨hsession, hhash, hanchor⟩,
    fun h ↦ ⟨h.session, h.hash, h.anchor⟩⟩

theorem admitRow_eq_ok {w : Unit} :
    admitRow d r = .ok w ↔ Storable r.suggestion ∧ Pinned d r.suggestion ∧ checkRow r = .ok w := by
  rw [admitRow, require_bind_eq_ok, bind_eq_ok]
  simp only [enforceReportSuggestionProvenance_eq_ok]
  exact and_congr_right fun _ ↦ ⟨fun ⟨_, h⟩ ↦ h, fun h ↦ ⟨⟨⟩, h⟩⟩

/-- **What a suggestion of a member adds.** -/
theorem create_eq_ok {seen : CreateReads} {id : UUID} {now : Timestamp} {request : SuggestionRequest}
    {s : SuggestionRow} :
    create seen id now request t = .ok (s, t') ↔
      ∃ roomId report, prepareSuggestion seen request = .ok (roomId, report) ∧
        admitRow t.reports (request.row id now report) = .ok ⟨⟩ ∧
        (∀ r ∈ t.suggestions, r.suggestion.id ≠ id) ∧ s = (request.row id now report).suggestion ∧
        t' = t.add (request.row id now report) ⟨.suggestionCreated id, some request.actorId,
          some roomId, some request.sessionId⟩ := by
  rw [create, bind_eq_ok]
  constructor
  · rintro ⟨⟨roomId, report⟩, hprepare, hrest⟩
    obtain ⟨_, hadmitted, hrest⟩ := bind_eq_ok.mp hrest
    obtain ⟨t₁, happend, hrest⟩ := bind_eq_ok.mp hrest
    obtain ⟨t₂, hrecord, hend⟩ := bind_eq_ok.mp hrest
    obtain ⟨hfresh, ht₂⟩ := appendRow_recordEvent_eq_ok.mp (bind_eq_ok.mpr ⟨t₁, happend, hrecord⟩)
    cases hend
    exact ⟨roomId, report, hprepare, hadmitted, hfresh, rfl, ht₂⟩
  · rintro ⟨roomId, report, hprepare, hadmitted, hfresh, rfl, rfl⟩
    refine ⟨_, hprepare, bind_eq_ok.mpr ⟨_, hadmitted, ?_⟩⟩
    obtain ⟨t₁, happend, hrecord⟩ := bind_eq_ok.mp (appendRow_recordEvent_eq_ok.mpr
      ⟨hfresh, Eq.refl (t.add (request.row id now report) ⟨.suggestionCreated id,
        some request.actorId, some roomId, some request.sessionId⟩)⟩)
    exact bind_eq_ok.mpr ⟨t₁, happend, bind_eq_ok.mpr ⟨_, hrecord, rfl⟩⟩

/-- What one proposal of the comparison adds. -/
theorem addProposal_eq_ok {x : ReviewExecution} {now : Timestamp} {p : ReviewProposal} :
    x.addProposal now t p = .ok t' ↔ admitRow t.reports (x.row now p) = .ok ⟨⟩ ∧
      ((∃ r ∈ t.suggestions, SameComparison r (x.row now p)) ∧ t' = t ∨
        (∀ r ∈ t.suggestions, ¬SameComparison r (x.row now p)) ∧
          (∀ r ∈ t.suggestions, r.suggestion.id ≠ p.suggestionId) ∧
          t' = t.add (x.row now p)
            ⟨.suggestionCreated p.suggestionId, none, some x.roomId, some x.sessionId⟩) := by
  rw [ReviewExecution.addProposal, bind_eq_ok]
  have hbind : ∀ {P : Prop}, (∃ a : Unit, admitRow t.reports (x.row now p) = .ok a ∧ P) ↔
      admitRow t.reports (x.row now p) = .ok ⟨⟩ ∧ P :=
    ⟨fun ⟨_, h⟩ ↦ h, fun h ↦ ⟨⟨⟩, h⟩⟩
  rw [hbind]
  refine and_congr_right fun _ ↦ ?_
  by_cases hsame : ∃ r ∈ t.suggestions, SameComparison r (x.row now p)
  · have hnot : ¬∀ r ∈ t.suggestions, ¬SameComparison r (x.row now p) :=
      fun hall ↦ hsame.elim fun r hr ↦ hall r hr.1 hr.2
    rw [if_pos hsame, Except.ok.injEq, eq_comm]
    simp only [hsame, hnot, true_and, false_and, or_false]
  · have hall : ∀ r ∈ t.suggestions, ¬SameComparison r (x.row now p) :=
      fun r hr h ↦ hsame ⟨r, hr, h⟩
    rw [if_neg hsame, appendRow_recordEvent_eq_ok]
    simp only [hsame, false_and, false_or]
    exact ⟨fun h ↦ ⟨hall, h⟩, And.right⟩

theorem requireMember_eq_ok {d : ReportRows} {sessionId actorId roomId : UUID}
    (h : requireMember d sessionId actorId = .ok roomId) : d.room.SeesSession actorId sessionId := by
  rw [requireMember] at h
  split at h
  · next s hs =>
    obtain ⟨hid, hsees⟩ : s.id = sessionId ∧ d.room.SeesRoom actorId s.roomId :=
      of_decide_eq_true (List.find?_some (p := fun a : TalkSession ↦
        decide (a.id = sessionId ∧ d.room.SeesRoom actorId a.roomId)) hs)
    exact ⟨s, List.mem_of_find?_eq_some hs, hid, hsees⟩
  · exact nomatch h

theorem requireReport_eq_ok {d : ReportRows} {sessionId : UUID} {report : PinnedReport}
    (h : requireReport d sessionId = .ok report) : d.loadReportIdentity sessionId = some report := by
  rw [requireReport] at h
  split at h
  · next hreport => exact hreport.trans (congrArg some (Except.ok.inj h))
  · exact nomatch h

/-- What the service has checked before it inserts. -/
theorem prepareSuggestion_eq_ok {seen : CreateReads} {request : SuggestionRequest} {roomId : UUID}
    {report : PinnedReport} (h : prepareSuggestion seen request = .ok (roomId, report)) :
    request.kind ∈ ["add", "edit", "remove"] ∧ request.Valid ∧
      seen.member.room.SeesSession request.actorId request.sessionId ∧
      seen.report.loadReportIdentity request.sessionId = some report ∧
      ∀ anchorId ∈ request.sourceAnchorId, seen.anchor.PinsAnchor report.snapshotId anchorId := by
  rw [prepareSuggestion, require_bind_eq_ok, require_bind_eq_ok, bind_eq_ok] at h
  obtain ⟨hkind, hvalid, room, hroom, h⟩ := h
  obtain ⟨found, hreport, h⟩ := bind_eq_ok.mp h
  obtain ⟨hanchor, h⟩ := require_bind_eq_ok.mp h
  cases h
  exact ⟨hkind, hvalid, requireMember_eq_ok hroom, requireReport_eq_ok hreport, hanchor⟩

/-- The session of a suggestion has this host, who was a member of its room. -/
def HostOf (d : ReportRows) (sessionId actorId roomId : UUID) : Prop :=
  ∃ session ∈ d.room.talkSessions, session.id = sessionId ∧ session.hostId = actorId ∧
    session.roomId = roomId ∧ d.room.SeesRoom actorId roomId

/-- **What a resolution changes.** -/
theorem resolve_eq_ok {seen : ReportRows} {now : Timestamp} {id actorId : UUID} {decision : String}
    {s : SuggestionRow} (h : resolve seen now id actorId decision t = .ok (s, t')) :
    ∃ state r roomId, decisionState decision = some state ∧ r ∈ t.suggestions ∧
      r.suggestion.id = id ∧ HostOf seen r.suggestion.sessionId actorId roomId ∧
      r.suggestion.status = "open" ∧ checkRow (settle decision actorId now r) = .ok ⟨⟩ ∧
      s = (settle decision actorId now r).suggestion ∧
      t' = t.settled id decision actorId now
        ⟨.suggestion state id 1, some actorId, some roomId, some r.suggestion.sessionId⟩ := by
  rw [resolve] at h
  cases hstate : decisionState decision with
  | none =>
    rw [hstate] at h
    cases h
  | some state =>
    rw [hstate] at h
    simp only at h
    split at h
    · cases h
    · next r session hfound =>
      obtain ⟨r', hr', hsession⟩ := Option.bind_eq_some_iff.mp hfound
      obtain ⟨session', hsession', heq⟩ := Option.map_eq_some_iff.mp hsession
      cases heq
      have hid : r.suggestion.id = id := of_decide_eq_true (List.find?_some (p := fun a : ReviewRow ↦
        decide (a.suggestion.id = id)) hr')
      have hsid : session.id = r.suggestion.sessionId := of_decide_eq_true (List.find?_some
        (p := fun a : TalkSession ↦ decide (a.id = r.suggestion.sessionId)) hsession')
      obtain ⟨hhost, h⟩ := require_bind_eq_ok.mp h
      obtain ⟨hopen, h⟩ := require_bind_eq_ok.mp h
      obtain ⟨_, hcheck, h⟩ := bind_eq_ok.mp h
      rw [recordEvent_eq, ok_bind] at h
      cases h
      exact ⟨state, r, session.roomId, rfl, List.mem_of_find?_eq_some hr', hid,
        ⟨session, List.mem_of_find?_eq_some hsession', hsid, hhost.1, rfl, hhost.2⟩, hopen, hcheck,
        rfl, rfl⟩

end Calls

/-! ## The checks of the service and those of the database -/

section Checks

variable {t : ReviewTables} {d : ReportRows} {request : SuggestionRequest} {id : UUID}
  {now : Timestamp} {report : PinnedReport}

/-- A digest is the same text again. -/
theorem lit_hexText {digest : Str} (h : ∀ c ∈ digest, isLowerHex c = true) :
    lit (hexText digest) = digest := by
  rw [lit, hexText, String.toList_ofList, List.map_map]
  refine (List.map_congr_left fun c hc ↦ ?_).trans (List.map_id digest)
  have hlow : c.val < 0xD800 := by
    have hhex := h c hc
    simp only [isLowerHex, Bool.or_eq_true, Bool.and_eq_true, decide_eq_true_eq] at hhex
    omega
  have hvalid : (Char.ofNat c.val).toNat = c.val := by
    rw [Char.ofNat, dif_pos (Or.inl hlow)]
    rfl
  exact Fin.ext hvalid

theorem isSha256_reportContentHash (summaryHash researchHash : String) :
    IsSha256 (lit (reportContentHash summaryHash researchHash)) := by
  have hdigest := isSha256_sha256Hex (encodeUtf8 (lit (summaryHash ++ researchHash)))
  rw [reportContentHash, lit_hexText hdigest.2]
  exact hdigest

/-- The report that the service finds is the one that the trigger expects. -/
theorem pinned_of_loadReportIdentity (hkeys : (d.room.generationSnapshots.map (·.id)).Nodup)
    {sessionId : UUID} (h : d.loadReportIdentity sessionId = some report) :
    (∃ p ∈ d.room.generationSnapshots, p.id = report.snapshotId ∧ p.sessionId = sessionId) ∧
      d.expectedHash report.snapshotId = some report.contentHash ∧
      IsSha256 (lit report.contentHash) := by
  rw [ReportRows.loadReportIdentity, Option.map_eq_some_iff] at h
  obtain ⟨p, hp, rfl⟩ := h
  obtain ⟨hmem, hreport⟩ := selectLast_mem hp
  obtain ⟨hsession, hhas⟩ := of_decide_eq_true hreport
  refine ⟨⟨p, hmem, rfl, hsession⟩, ?_, isSha256_reportContentHash _ _⟩
  have hfind : (d.room.generationSnapshots.find? fun q ↦
      q.id = p.id ∧ HasReport d.room.database q) = some p :=
    (find?_eq_some_of_key hkeys (k := p.id) fun q hq ↦ (of_decide_eq_true hq).1).mpr
      ⟨hmem, decide_eq_true ⟨rfl, hhas⟩⟩
  rw [ReportRows.expectedHash, hfind]
  rfl

/-- The texts of a request go to the database. -/
def SuggestionRequest.Storable (request : SuggestionRequest) : Prop :=
  ∀ text ∈ [strip request.suggestedText, strip request.rationale] ++ request.target.toList,
    Char.ofNat 0 ∉ text.toList

instance : DecidablePred SuggestionRequest.Storable := fun request ↦ inferInstanceAs (Decidable
  (∀ text ∈ [strip request.suggestedText, strip request.rationale] ++ request.target.toList,
    Char.ofNat 0 ∉ text.toList))

/-- A valid request leaves one of the constraints open. -/
theorem checkRow_row (hkind : request.kind ∈ ["add", "edit", "remove"]) (hvalid : request.Valid)
    (hhash : IsSha256 (lit report.contentHash)) :
    checkRow (request.row id now report) = require (request.target ≠ some "")
      (.database "report_suggestions_target_block_id_check") := by
  obtain ⟨htext, hrationale, htarget⟩ := hvalid
  have hlength : (∀ target ∈ request.target, 1 ≤ target.length ∧ target.length ≤ 200) ↔
      request.target ≠ some "" := by
    refine ⟨fun h hempty ↦ absurd (h "" hempty).1 (by decide), fun h target hmem ↦ ?_⟩
    refine ⟨Nat.one_le_iff_ne_zero.mpr fun hzero ↦ h ?_, htarget target hmem⟩
    rw [← String.length_eq_zero_iff.mp hzero]
    exact hmem
  generalize hrow : request.row id now report = r
  have hopen : r.suggestion.status = "open" ↔
      r.suggestion.resolvedBy = none ∧ r.suggestion.resolvedAt = none := by
    subst hrow
    exact iff_of_true rfl ⟨rfl, rfl⟩
  have horigin : r.suggestion.origin ∈ ["member", "automatic_comparison"] := by
    subst hrow
    exact List.mem_cons_self
  have hshape : r.suggestion.origin = "member" ∧ r.comparisonKey = none ∨
      r.suggestion.origin = "automatic_comparison" ∧ ∀ key ∈ r.comparisonKey, IsSha256 (lit key) := by
    subst hrow
    exact Or.inl ⟨rfl, rfl⟩
  have hstatus : r.suggestion.status ∈ ["open", "accepted", "rejected"] := by
    subst hrow
    exact List.mem_cons_self
  have hkind : r.suggestion.kind ∈ ["add", "edit", "remove"] := hrow ▸ hkind
  have hhash : IsSha256 (lit r.suggestion.reportContentHash) := hrow ▸ hhash
  have hrationale : r.suggestion.rationale.length ≤ 2000 := hrow ▸ hrationale
  have htext : 1 ≤ r.suggestion.suggestedText.length ∧
      r.suggestion.suggestedText.length ≤ 10000 := hrow ▸ htext
  have hlength : (∀ target ∈ r.suggestion.targetBlockId, 1 ≤ target.length ∧ target.length ≤ 200) ↔
      request.target ≠ some "" := hrow ▸ hlength
  rw [checkRow, require_of hopen, ok_bind, require_of hhash, ok_bind, require_of hkind, ok_bind,
    require_of horigin, ok_bind, require_of hshape, ok_bind, require_of hrationale, ok_bind,
    require_of hstatus, ok_bind, require_of htext, ok_bind]
  by_cases htarget : request.target ≠ some ""
  · rw [require_of htarget, require_of (hlength.mpr htarget)]
  · rw [require_of_not htarget, require_of_not (hlength.not.mpr htarget)]

/-- **What comes of a suggestion whose pins are still right.** -/
theorem create_of_pinned {seen : CreateReads} {roomId : UUID}
    (hprepare : prepareSuggestion seen request = .ok (roomId, report))
    (hpinned : Pinned t.reports (request.row id now report).suggestion)
    (hhash : IsSha256 (lit report.contentHash))
    (hfresh : ∀ r ∈ t.suggestions, r.suggestion.id ≠ id) :
    create seen id now request t = (do
      require request.Storable
        (.dataError "PostgreSQL text fields cannot contain NUL (0x00) bytes")
      require (request.target ≠ some "") (.database "report_suggestions_target_block_id_check")
      .ok ((request.row id now report).suggestion,
        t.add (request.row id now report) ⟨.suggestionCreated id, some request.actorId,
          some roomId, some request.sessionId⟩)) := by
  obtain ⟨hkind, hvalid, -⟩ := prepareSuggestion_eq_ok hprepare
  have hadd := appendRow_recordEvent_eq_ok.mpr ⟨hfresh, Eq.refl (t.add (request.row id now report)
    ⟨.suggestionCreated id, some request.actorId, some roomId, some request.sessionId⟩)⟩
  obtain ⟨t₁, happend, hrecord⟩ := bind_eq_ok.mp hadd
  have hadmitted : admitRow t.reports (request.row id now report) = (do
      require request.Storable
        (.dataError "PostgreSQL text fields cannot contain NUL (0x00) bytes")
      require (request.target ≠ some "") (.database "report_suggestions_target_block_id_check")) := by
    rw [admitRow, enforceReportSuggestionProvenance_eq_ok (w := ⟨⟩) |>.mpr hpinned, ok_bind,
      checkRow_row hkind hvalid hhash]
    rfl
  rw [create, hprepare, ok_bind]
  simp only
  rw [hadmitted, bind_assoc, happend, ok_bind, hrecord, ok_bind]

/-- Nothing is left of a text of white space. -/
theorem strip_eq_empty {s : String} : Text.strip s = "" ↔ Text.Blank s := by
  have hstrip : (Text.strip s).toList = (s.toList.dropWhile Text.isSpace).rdropWhile Text.isSpace :=
    String.toList_ofList
  rw [← String.toList_inj, hstrip, String.toList_empty, List.rdropWhile_eq_nil_iff]
  constructor
  · intro h
    have hnil : s.toList.dropWhile Text.isSpace = [] := by
      by_contra hne
      have hhead := List.dropWhile_get_zero_not Text.isSpace s.toList (List.length_pos_iff.mpr hne)
      exact hhead (h _ (List.getElem_mem _))
    exact List.dropWhile_eq_nil_iff.mp hnil
  · intro h c hc
    exact h c ((List.dropWhile_sublist _).subset hc)

/-- The one target that the service lets through and the table does not. -/
theorem target_eq_empty : request.target = some "" ↔
    ∃ target ∈ request.targetBlockId, target ≠ "" ∧ Blank target := by
  rw [SuggestionRequest.target, Option.bind_eq_some_iff]
  refine exists_congr fun target ↦ and_congr_right fun _ ↦ ?_
  by_cases hempty : target = ""
  · simp [hempty]
  · rw [if_neg hempty, Option.some.injEq, strip_eq_empty]
    exact (and_iff_right hempty).symm

/-- The checks of the service raise what the service documents. -/
theorem prepareSuggestion_eq_error {seen : CreateReads} {e : ReviewError}
    (h : prepareSuggestion seen request = .error e) :
    ∃ message, e = .valueError message ∨ e = .reportSuggestionAccess message ∨
      e = .reportSuggestionState message := by
  rw [prepareSuggestion] at h
  by_cases hkind : request.kind ∈ ["add", "edit", "remove"]
  · rw [require_of hkind, ok_bind] at h
    by_cases hvalid : request.Valid
    · rw [require_of hvalid, ok_bind, requireMember] at h
      split at h
      · rw [ok_bind, requireReport] at h
        split at h
        · next report _ =>
          rw [ok_bind] at h
          by_cases hanchor : ∀ anchorId ∈ request.sourceAnchorId,
              seen.anchor.PinsAnchor report.snapshotId anchorId
          · rw [require_of hanchor] at h
            cases h
          · rw [require_of_not hanchor] at h
            cases h
            exact ⟨_, Or.inr (Or.inl rfl)⟩
        · cases h
          exact ⟨_, Or.inr (Or.inr rfl)⟩
      · cases h
        exact ⟨_, Or.inr (Or.inl rfl)⟩
    · rw [require_of_not hvalid] at h
      cases h
      exact ⟨_, Or.inl rfl⟩
  · rw [require_of_not hkind] at h
    cases h
    exact ⟨_, Or.inl rfl⟩

/-- Nobody comes in between the reads. -/
def CreateReads.alone (d : ReportRows) : CreateReads := ⟨d, d, d⟩

/-- **What the service lets through the database takes.** When nobody comes in between, the trigger never
refuses a suggestion of a member, and of the constraints only the one on the target can: it does for a
target of white space. Without that, and without a NUL in its texts, a suggestion is accepted exactly
when the checks of the service are met. -/
theorem create_meets_checks (hkeys : (t.reports.room.generationSnapshots.map (·.id)).Nodup)
    (hfresh : ∀ r ∈ t.suggestions, r.suggestion.id ≠ id) :
    (∀ message, create (.alone t.reports) id now request t ≠ .error (.raiseException message)) ∧
      (∀ constraint, create (.alone t.reports) id now request t = .error (.database constraint) ↔
        constraint = "report_suggestions_target_block_id_check" ∧
          (∃ p, prepareSuggestion (.alone t.reports) request = .ok p) ∧ request.Storable ∧
          ∃ target ∈ request.targetBlockId, target ≠ "" ∧ Text.Blank target) ∧
      ((∃ p, create (.alone t.reports) id now request t = .ok p) ↔
        (∃ p, prepareSuggestion (.alone t.reports) request = .ok p) ∧ request.Storable ∧
          ¬∃ target ∈ request.targetBlockId, target ≠ "" ∧ Text.Blank target) := by
  rw [← target_eq_empty]
  cases hprepare : prepareSuggestion (.alone t.reports) request with
  | error e =>
    have hcreate : create (.alone t.reports) id now request t = .error e := by
      rw [create, hprepare, error_bind]
    obtain ⟨m, hm⟩ := prepareSuggestion_eq_error hprepare
    rw [hcreate]
    refine ⟨?_, fun constraint ↦ ⟨?_, fun h ↦ nomatch h.2.1⟩, ⟨nofun, fun h ↦ nomatch h.1⟩⟩
    · rcases hm with rfl | rfl | rfl <;> exact nofun
    · rcases hm with rfl | rfl | rfl <;> exact nofun
  | ok p =>
    obtain ⟨roomId, report⟩ := p
    obtain ⟨-, -, -, hreport, hanchor⟩ := prepareSuggestion_eq_ok hprepare
    obtain ⟨hsession, hexpected, hhash⟩ := pinned_of_loadReportIdentity hkeys hreport
    have hpinned : Pinned t.reports (request.row id now report).suggestion :=
      ⟨hsession, hexpected, hanchor⟩
    rw [create_of_pinned hprepare hpinned hhash hfresh]
    by_cases hstorable : request.Storable
    · by_cases htarget : request.target = some ""
      · rw [require_of hstorable, require_of_not (not_not.mpr htarget), ok_bind, error_bind]
        simp [hstorable, htarget, eq_comm]
      · rw [require_of hstorable, require_of htarget, ok_bind, ok_bind]
        simp [hstorable, htarget]
    · rw [require_of_not hstorable, error_bind]
      simp [hstorable]

end Checks

/-! ## A session with a report -/

/-- The host of the session 20 and the two documents of its first generation. -/
def reportedSession : ReportRows where
  room :=
    { roomMemberships := [⟨10, 1, true, false⟩]
      talkSessions := [⟨20, 10, 1, "topic", .ready, 1, 1, 0⟩]
      submissions := []
      sourceRevisions := []
      sourceAnchors := []
      generationSnapshots := [⟨60, 20, 1, 1, "topic", "v1", "a1"⟩]
      snapshotRevisions := []
      generationRuns := [⟨70, 60, .summary, "p", "m", "1", "v1", .succeeded, none⟩,
        ⟨71, 60, .research, "p", "m", "1", "v1", .succeeded, none⟩]
      generatedDocuments := [⟨⟨80, 70, .summary, ""⟩, []⟩, ⟨⟨81, 71, .research, ""⟩, []⟩]
      generatedSegments := []
      citations := []
      webEvidence := []
      mergedDocumentStates := []
      versions := []
      reportSuggestions := [] }
  contentHash _ := ""

/-- Its host adds a text. -/
def hostRequest : SuggestionRequest := ⟨20, 1, "text", "", none, none, "add"⟩

/-- The report of the session. -/
def reportedPin : PinnedReport := ⟨60, reportContentHash "" ""⟩

theorem prepareSuggestion_hostRequest :
    prepareSuggestion (.alone reportedSession) hostRequest = .ok (10, reportedPin) := by
  have hselect : selectLast (·.generationEpoch) (fun p ↦ decide (p.sessionId = 20 ∧
      HasReport reportedSession.room.database p)) reportedSession.room.generationSnapshots =
        some ⟨60, 20, 1, 1, "topic", "v1", "a1"⟩ := by decide +kernel
  have hreport : requireReport reportedSession 20 = .ok reportedPin := by
    rw [requireReport, ReportRows.loadReportIdentity, hselect]
    rfl
  have hmember : requireMember reportedSession 20 1 = .ok 10 := by decide
  have hvalid : hostRequest.Valid := by decide
  have hanchor : ∀ anchorId ∈ hostRequest.sourceAnchorId,
      reportedSession.PinsAnchor reportedPin.snapshotId anchorId := by
    rintro _ ⟨⟩
  have hkind : hostRequest.kind ∈ ["add", "edit", "remove"] := List.mem_cons_self
  rw [prepareSuggestion, require_of hkind, ok_bind, require_of hvalid, ok_bind]
  change (do
    let roomId ← requireMember reportedSession 20 1
    let report ← requireReport reportedSession 20
    require (∀ anchorId ∈ hostRequest.sourceAnchorId,
      reportedSession.PinsAnchor report.snapshotId anchorId)
      (.reportSuggestionAccess "source anchor is unavailable")
    .ok (roomId, report)) = _
  rw [hmember, ok_bind, hreport, ok_bind, require_of hanchor, ok_bind]

theorem create_meets_checks_reported :
    (∃ p, create (.alone reportedSession) 90 0 hostRequest (noReviews reportedSession) = .ok p) ↔
      (∃ p, prepareSuggestion (.alone reportedSession) hostRequest = .ok p) ∧ hostRequest.Storable ∧
        ¬∃ target ∈ hostRequest.targetBlockId, target ≠ "" ∧ Text.Blank target :=
  (create_meets_checks (t := noReviews reportedSession) (by decide) nofun).2.2

end Reviews

end MeetingRag
