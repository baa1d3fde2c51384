import MeetingRag.Documents.ReviewChecks

/-!
# Suggestions under any order of calls

Members create suggestions, the automatic comparison adds its own, hosts resolve them, and the rest of
the application goes on. A suggestion keeps its row, its content and its pins, it is resolved at most
once, and the ledger holds its creation and its resolution and nothing else about it.
-/

open Outcome Py Table Text

namespace MeetingRag

namespace Reviews

/-- The entries of a table's rows, after an update that gives one row more of them. -/
theorem perm_flatMap_updateWhere {α β κ : Type*} {p : α → Prop} [DecidablePred p] {f : α → α}
    {key : α → κ} {t : List α} {r : α} {g : α → List β} {more : List β} (h : (t.map key).Nodup)
    (hr : r ∈ t) (hp : ∀ a, p a ↔ key a = key r) (hf : (g (f r)).Perm (g r ++ more)) :
    ((updateWhere p f t).flatMap g).Perm (t.flatMap g ++ more) := by
  induction t with
  | nil => exact absurd hr List.not_mem_nil
  | cons a t ih =>
    have hcons : updateWhere p f (a :: t) = (if p a then f a else a) :: updateWhere p f t := rfl
    rw [List.map_cons, List.nodup_cons] at h
    rw [hcons, List.flatMap_cons, List.flatMap_cons, List.append_assoc]
    rcases List.mem_cons.mp hr with rfl | hr
    · -- no other row has the key
      have hrest : updateWhere p f t = t := by
        apply updateWhere_eq_self
        intro b hb hpb
        exact h.1 ((hp b).mp hpb ▸ List.mem_map_of_mem hb)
      rw [if_pos ((hp r).mpr rfl), hrest]
      refine (hf.append_right _).trans ?_
      rw [List.append_assoc]
      exact List.perm_append_comm.append_left _
    · have hne : ¬p a := fun hpa ↦ h.1 ((hp a).mp hpa ▸ List.mem_map_of_mem hr)
      rw [if_neg hne]
      exact (ih h.2 hr).append_left _

/-! ## The ledger of the suggestions -/

/-- The entry of a new suggestion. An automatic one has no actor. -/
def createdEntry (s : SuggestionRow) : LedgerEntry :=
  (.suggestionCreated s.id, if s.origin = "member" then some s.authorId else none, some s.sessionId)

/-- The entries that a suggestion has to have. -/
def entriesOf (s : SuggestionRow) : List LedgerEntry :=
  createdEntry s :: ((decisionState s.status).map fun state ↦
    (.suggestion state s.id 1, s.resolvedBy, some s.sessionId)).toList

/-- **The invariant.** The ledger holds what the rows call for, in some order. -/
structure Wellformed (t : ReviewTables) : Prop where
  ids : (t.suggestions.map (·.suggestion.id)).Nodup
  checks : ∀ r ∈ t.suggestions, checkRow r = .ok ⟨⟩
  ledger : t.entries.Perm (t.suggestions.flatMap (entriesOf ·.suggestion))

theorem wellformed_noReviews (reports : ReportRows) : Wellformed (noReviews reports) :=
  ⟨List.nodup_nil, nofun, List.Perm.refl _⟩

section Ledger

variable {t : ReviewTables} {r : ReviewRow} {e : AuditEvent} {x : LedgerEntry}

theorem entriesOf_of_open {s : SuggestionRow} (h : s.status = "open") :
    entriesOf s = [createdEntry s] := by
  rw [entriesOf, h]
  rfl

theorem mem_entriesOf {s : SuggestionRow} : x ∈ entriesOf s ↔ x = createdEntry s ∨
    ∃ state, decisionState s.status = some state ∧
      x = (.suggestion state s.id 1, s.resolvedBy, some s.sessionId) := by
  rw [entriesOf, List.mem_cons, Option.mem_toList, Option.map_eq_some_iff]
  simp only [eq_comm]

/-- Whether an event is about a suggestion is told by its identity. -/
theorem suggestionEntry_congr {e' : AuditEvent} (hx : suggestionEntry e = some x)
    (h : e'.event = e.event) : suggestionEntry e' = some (e.event, e'.actorId, e'.sessionId) := by
  rw [suggestionEntry] at hx ⊢
  rw [h]
  split at hx
  · rfl
  · rfl
  · exact nomatch hx

/-- An event that no row calls for is appended to the ledger. -/
theorem Wellformed.entries_append (h : Wellformed t) (hx : suggestionEntry e = some x)
    (hnew : ∀ r ∈ t.suggestions, ∀ y ∈ entriesOf r.suggestion, y.1 ≠ e.event) :
    (appendEvent e t.activity.auditEvents).filterMap suggestionEntry = t.entries ++ [x] := by
  have hfresh : ∀ r ∈ t.activity.auditEvents, r.event ≠ e.event := by
    intro r hr hevent
    have hmem : (e.event, r.actorId, r.sessionId) ∈ t.entries :=
      List.mem_filterMap.mpr ⟨r, hr, suggestionEntry_congr hx hevent⟩
    obtain ⟨row, hrow, hentry⟩ := List.mem_flatMap.mp (h.ledger.mem_iff.mp hmem)
    exact hnew row hrow _ hentry rfl
  rw [Account.appendEvent_of_fresh hfresh, List.filterMap_append, List.filterMap_cons_some hx,
    List.filterMap_nil]
  rfl

/-- **A new row keeps the invariant.** -/
theorem Wellformed.add (h : Wellformed t) (hcheck : checkRow r = .ok ⟨⟩)
    (hopen : r.suggestion.status = "open")
    (hfresh : ∀ r' ∈ t.suggestions, r'.suggestion.id ≠ r.suggestion.id)
    (he : suggestionEntry e = some (createdEntry r.suggestion))
    (hevent : e.event = .suggestionCreated r.suggestion.id) : Wellformed (t.add r e) := by
  refine ⟨nodup_map_append_singleton h.ids hfresh, fun r' hr' ↦ ?_, ?_⟩
  · rcases List.mem_append.mp hr' with hr' | hr'
    · exact h.checks r' hr'
    · rw [List.mem_singleton.mp hr']
      exact hcheck
  · have hnew : ∀ r' ∈ t.suggestions, ∀ y ∈ entriesOf r'.suggestion, y.1 ≠ e.event := by
      intro r' hr' y hy heq
      rw [hevent] at heq
      rcases mem_entriesOf.mp hy with rfl | ⟨state, -, rfl⟩
      · exact hfresh r' hr' (EventIdentity.suggestionCreated.inj heq)
      · exact nomatch heq
    change ((appendEvent e t.activity.auditEvents).filterMap suggestionEntry).Perm
      ((t.suggestions ++ [r]).flatMap (entriesOf ·.suggestion))
    rw [h.entries_append he hnew, List.flatMap_append, List.flatMap_singleton, entriesOf_of_open hopen]
    exact h.ledger.append_right _

theorem decisionState_eq_some {decision : String} {state : OneOf [.accepted, .rejected]}
    (h : decisionState decision = some state) : decision ∈ ["accepted", "rejected"] := by
  rw [decisionState] at h
  split at h
  · next haccepted => exact haccepted ▸ List.mem_cons_self
  · split at h
    · next hrejected => exact hrejected ▸ List.mem_cons_of_mem _ List.mem_cons_self
    · exact nomatch h

/-- A decision does not make a row violate its constraints. -/
theorem checkRow_settle {decision : String} {actorId : UUID} {now : Timestamp}
    (h : checkRow r = .ok ⟨⟩) (hdecision : decision ∈ ["accepted", "rejected"]) :
    checkRow (settle decision actorId now r) = .ok ⟨⟩ := by
  simp only [checkRow, require_bind_eq_ok, require_eq_ok] at h ⊢
  obtain ⟨-, hhash, hkind, horigin, hshape, hrationale, -, htext, htarget⟩ := h
  have hne : decision ≠ "open" := by
    rintro rfl
    exact absurd hdecision (by decide)
  refine ⟨?_, hhash, hkind, horigin, hshape, hrationale, List.mem_cons_of_mem _ hdecision, htext,
    htarget⟩
  exact iff_of_false hne fun hnone ↦ Option.some_ne_none _ hnone.1

/-- **A decision keeps the invariant.** -/
theorem Wellformed.settled (h : Wellformed t) (hr : r ∈ t.suggestions)
    (hopen : r.suggestion.status = "open") {decision : String} {actorId roomId : UUID}
    {now : Timestamp} {state : OneOf [.accepted, .rejected]}
    (hstate : decisionState decision = some state) :
    Wellformed (t.settled r.suggestion.id decision actorId now
      ⟨.suggestion state r.suggestion.id 1, some actorId, some roomId,
        some r.suggestion.sessionId⟩) := by
  have hids : (updateWhere (fun a : ReviewRow ↦ a.suggestion.id = r.suggestion.id)
      (settle decision actorId now) t.suggestions).map (·.suggestion.id) =
        t.suggestions.map (·.suggestion.id) := map_updateWhere_of_forall fun _ ↦ rfl
  refine ⟨hids ▸ h.ids, fun r' hr' ↦ ?_, ?_⟩
  · rcases mem_updateWhere.mp hr' with ⟨r₀, hr₀, -, rfl⟩ | ⟨hr', -⟩
    · exact checkRow_settle (h.checks r₀ hr₀) (decisionState_eq_some hstate)
    · exact h.checks r' hr'
  · -- the only row with the id is open, so no row calls for the event yet
    have hnew : ∀ r' ∈ t.suggestions, ∀ y ∈ entriesOf r'.suggestion,
        y.1 ≠ .suggestion state r.suggestion.id 1 := by
      intro r' hr' y hy heq
      rcases mem_entriesOf.mp hy with rfl | ⟨state', hstate', rfl⟩
      · exact nomatch heq
      · have hsame : r' = r := eq_of_key_eq h.ids hr' hr (EventIdentity.suggestion.inj heq).2.1
        rw [hsame, hopen] at hstate'
        exact nomatch hstate'
    have hmore : (entriesOf (settle decision actorId now r).suggestion).Perm
        (entriesOf r.suggestion ++ [(.suggestion state r.suggestion.id 1, some actorId,
          some r.suggestion.sessionId)]) := by
      rw [entriesOf_of_open hopen, entriesOf]
      change (createdEntry _ :: ((decisionState decision).map _).toList).Perm _
      rw [hstate]
      exact List.Perm.refl _
    change ((appendEvent _ t.activity.auditEvents).filterMap suggestionEntry).Perm
      ((updateWhere _ _ t.suggestions).flatMap (entriesOf ·.suggestion))
    rw [h.entries_append rfl hnew]
    exact (h.ledger.append_right _).trans (perm_flatMap_updateWhere (g := fun a : ReviewRow ↦
      entriesOf a.suggestion) h.ids hr (fun _ ↦ Iff.rfl) hmore).symm

end Ledger

/-! ## Steps -/

section Steps

variable {t t' : ReviewTables} {r : ReviewRow}

theorem step_create_of_ok {seen : CreateReads} {id : UUID} {now : Timestamp}
    {request : SuggestionRequest} {s : SuggestionRow}
    (h : create seen id now request t = .ok (s, t')) :
    reviewMachine.step t (.create seen id now request) = (.created s, t') := by
  change answer .created (transaction t (create seen id now request t)) = _
  rw [h]
  rfl

theorem step_create (t : ReviewTables) (seen : CreateReads) (id : UUID) (now : Timestamp)
    (request : SuggestionRequest) :
    (∃ e, reviewMachine.step t (.create seen id now request) = (.refused e, t)) ∨
      ∃ s t', create seen id now request t = .ok (s, t') ∧
        reviewMachine.step t (.create seen id now request) = (.created s, t') := by
  cases hcreate : create seen id now request t with
  | error e =>
    left
    refine ⟨e, ?_⟩
    change answer .created (transaction t (create seen id now request t)) = _
    rw [hcreate]
    rfl
  | ok p => exact Or.inr ⟨p.1, p.2, rfl, step_create_of_ok hcreate⟩

theorem step_resolve (t : ReviewTables) (seen : ReportRows) (now : Timestamp) (id actorId : UUID)
    (decision : String) :
    (∃ e, reviewMachine.step t (.resolve seen now id actorId decision) = (.refused e, t)) ∨
      ∃ s t', resolve seen now id actorId decision t = .ok (s, t') ∧
        reviewMachine.step t (.resolve seen now id actorId decision) = (.resolved s, t') := by
  change (∃ e, answer .resolved (transaction t (resolve seen now id actorId decision t)) = _) ∨
    ∃ s t', _ ∧ answer .resolved (transaction t (resolve seen now id actorId decision t)) = _
  rcases resolve seen now id actorId decision t with e | ⟨s, t'⟩
  · exact Or.inl ⟨e, rfl⟩
  · exact Or.inr ⟨s, t', rfl, rfl⟩

theorem step_automatic (t : ReviewTables) (now : Timestamp) (x : ReviewExecution) :
    (∃ e, reviewMachine.step t (.automatic now x) = (.refused e, t)) ∨
      ∃ t', x.effect now t = .ok t' ∧ reviewMachine.step t (.automatic now x) = (.added, t') := by
  change (∃ e, answer _ (transaction t ((x.effect now t).map ((), ·))) = _) ∨
    ∃ t', _ ∧ answer _ (transaction t ((x.effect now t).map ((), ·))) = _
  rcases x.effect now t with e | t'
  · exact Or.inl ⟨e, rfl⟩
  · exact Or.inr ⟨t', rfl, rfl⟩

theorem wellformed_addProposal {x : ReviewExecution} {now : Timestamp} {p : ReviewProposal}
    (h : Wellformed t) (hadd : x.addProposal now t p = .ok t') : Wellformed t' := by
  obtain ⟨hadmitted, ⟨-, rfl⟩ | ⟨-, hfresh, rfl⟩⟩ := addProposal_eq_ok.mp hadd
  · exact h
  · exact h.add (admitRow_eq_ok.mp hadmitted).2.2 rfl hfresh rfl rfl

/-- **Every call keeps the invariant.** -/
theorem wellformed_step (h : Wellformed t) {input : ReviewInput}
    (henabled : reviewMachine.enabled t input) : Wellformed (reviewMachine.step t input).2 := by
  cases input with
  | create seen id now request =>
    rcases step_create t seen id now request with ⟨e, hstep⟩ | ⟨s, t', hcreate, hstep⟩
    · rw [hstep]
      exact h
    · rw [hstep]
      obtain ⟨roomId, report, -, hadmitted, hfresh, -, rfl⟩ := create_eq_ok.mp hcreate
      exact h.add (admitRow_eq_ok.mp hadmitted).2.2 rfl hfresh rfl rfl
  | resolve seen now id actorId decision =>
    rcases step_resolve t seen now id actorId decision with ⟨e, hstep⟩ | ⟨s, t', hresolve, hstep⟩
    · rw [hstep]
      exact h
    · rw [hstep]
      obtain ⟨state, r, roomId, hstate, hr, rfl, -, hopen, -, -, rfl⟩ := resolve_eq_ok hresolve
      exact h.settled hr hopen hstate
  | automatic now x =>
    rcases step_automatic t now x with ⟨e, hstep⟩ | ⟨t', heffect, hstep⟩
    · rw [hstep]
      exact h
    · rw [hstep]
      exact foldlM_invariant (fun _ a ↦ Wellformed a) heffect h fun _ _ _ _ ha hadd ↦
        wellformed_addProposal ha hadd
  | elsewhere reports activity =>
    refine ⟨h.ids, h.checks, ?_⟩
    have hentries : activity.auditEvents.filterMap suggestionEntry = t.entries := henabled
    change (activity.auditEvents.filterMap suggestionEntry).Perm _
    rw [hentries]
    exact h.ledger

theorem wellformed_run {inputs : List ReviewInput} (h : Wellformed t)
    (hlegal : reviewMachine.Legal t inputs) : Wellformed (reviewMachine.exec t inputs) := by
  induction inputs generalizing t with
  | nil => exact h
  | cons input inputs ih => exact ih (wellformed_step h hlegal.1) hlegal.2

end Steps

/-! ## The life of a suggestion -/

/-- The suggestion that a call has resolved. -/
def resolvedId : ReviewInput × ReviewReply → Option UUID
  | (.resolve _ _ id _ _, .resolved _) => some id
  | _ => none

/-- The calls of a history that have resolved a suggestion. -/
def resolutions (id : UUID) (history : List (ReviewInput × ReviewReply)) :
    List (ReviewInput × ReviewReply) :=
  history.filter fun entry ↦ resolvedId entry = some id

/-- A call with which the host of the session has settled a row. -/
structure SettledBy (r r' : ReviewRow) (entry : ReviewInput × ReviewReply) : Prop where
  wasOpen : r.suggestion.status = "open"
  call : ∃ seen now actorId decision roomId,
    entry = (.resolve seen now r.suggestion.id actorId decision, .resolved r'.suggestion) ∧
      decision ∈ ["accepted", "rejected"] ∧ HostOf seen r.suggestion.sessionId actorId roomId ∧
      r' = settle decision actorId now r

section Life

variable {t : ReviewTables} {r r' : ReviewRow} {entry : ReviewInput × ReviewReply}

theorem SettledBy.id (h : SettledBy r r' entry) : r'.suggestion.id = r.suggestion.id := by
  obtain ⟨_, _, _, _, _, -, -, -, rfl⟩ := h.call
  rfl

theorem SettledBy.resolvedId (h : SettledBy r r' entry) :
    resolvedId entry = some r.suggestion.id := by
  obtain ⟨_, _, _, _, _, rfl, -⟩ := h.call
  rfl

theorem SettledBy.not_open (h : SettledBy r r' entry) : r'.suggestion.status ≠ "open" := by
  obtain ⟨_, _, _, decision, _, -, hdecision, -, rfl⟩ := h.call
  change decision ≠ "open"
  rintro rfl
  exact absurd hdecision (by decide)

/-- **What a call does to a row**: nothing, unless it is the resolution of the row. -/
theorem row_step (h : Wellformed t) (input : ReviewInput) (hr : r ∈ t.suggestions) :
    (r ∈ (reviewMachine.step t input).2.suggestions ∧
      resolvedId (input, (reviewMachine.step t input).1) ≠ some r.suggestion.id) ∨
    ∃ r' ∈ (reviewMachine.step t input).2.suggestions,
      SettledBy r r' (input, (reviewMachine.step t input).1) := by
  cases input with
  | create seen id now request =>
    refine Or.inl ⟨?_, nofun⟩
    rcases step_create t seen id now request with ⟨e, hstep⟩ | ⟨s, t', hcreate, hstep⟩
    · rw [hstep]
      exact hr
    · rw [hstep]
      obtain ⟨roomId, report, -, -, -, -, rfl⟩ := create_eq_ok.mp hcreate
      exact List.mem_append_left _ hr
  | resolve seen now id actorId decision =>
    rcases step_resolve t seen now id actorId decision with ⟨e, hstep⟩ | ⟨s, t', hresolve, hstep⟩
    · rw [hstep]
      exact Or.inl ⟨hr, nofun⟩
    · rw [hstep]
      obtain ⟨state, r₀, roomId, hstate, hr₀, rfl, hhost, hopen, -, rfl, rfl⟩ :=
        resolve_eq_ok hresolve
      by_cases hid : r.suggestion.id = r₀.suggestion.id
      · -- the row is the one that was locked
        obtain rfl : r = r₀ := eq_of_key_eq h.ids hr hr₀ hid
        refine Or.inr ⟨settle decision actorId now r, mem_updateWhere_of_mem hr rfl, hopen, ?_⟩
        exact ⟨seen, now, actorId, decision, roomId, rfl, decisionState_eq_some hstate, hhost, rfl⟩
      · refine Or.inl ⟨mem_updateWhere_of_not hr hid, ?_⟩
        exact fun heq ↦ hid (Option.some.inj heq).symm
  | automatic now x =>
    refine Or.inl ⟨?_, nofun⟩
    rcases step_automatic t now x with ⟨e, hstep⟩ | ⟨t', heffect, hstep⟩
    · rw [hstep]
      exact hr
    · rw [hstep]
      refine foldlM_invariant (fun _ a ↦ r ∈ a.suggestions) heffect hr ?_
      intro _ p a a' ha hadd
      obtain ⟨-, ⟨-, rfl⟩ | ⟨-, -, rfl⟩⟩ := addProposal_eq_ok.mp hadd
      · exact ha
      · exact List.mem_append_left _ ha
  | elsewhere reports activity => exact Or.inl ⟨hr, nofun⟩

/-- What a run does to a row. -/
theorem row_run {inputs : List ReviewInput} (h : Wellformed t)
    (hlegal : reviewMachine.Legal t inputs) (hr : r ∈ t.suggestions) :
    (r ∈ (reviewMachine.exec t inputs).suggestions ∧
      resolutions r.suggestion.id (reviewMachine.history t inputs) = []) ∨
    ∃ r' ∈ (reviewMachine.exec t inputs).suggestions, ∃ entry, SettledBy r r' entry ∧
      resolutions r.suggestion.id (reviewMachine.history t inputs) = [entry] := by
  induction inputs generalizing t r with
  | nil => exact Or.inl ⟨hr, rfl⟩
  | cons input inputs ih =>
    have hnext := wellformed_step h hlegal.1
    rw [Machine.history, resolutions]
    rcases row_step h input hr with ⟨hkept, hother⟩ | ⟨r', hr', hsettled⟩
    · rw [List.filter_cons_of_neg (by simpa using hother)]
      exact ih hnext hlegal.2 hkept
    · rw [List.filter_cons_of_pos (by simpa using hsettled.resolvedId)]
      -- a settled row is not open, so the rest of the run leaves it alone
      rcases ih hnext hlegal.2 hr' with ⟨hkept, hnone⟩ | ⟨_, _, _, hagain, -⟩
      · rw [hsettled.id, resolutions] at hnone
        exact Or.inr ⟨r', hkept, _, hsettled, by rw [hnone]⟩
      · exact absurd hagain.wasOpen hsettled.not_open

end Life

/-! ## The pins -/

/-- How a row came in: its pins were right in the tables of that step, and the author of a member's row
was a member when the call looked. -/
structure AddedBy (t : ReviewTables) (input : ReviewInput) (s : SuggestionRow) : Prop where
  fresh : ∀ r ∈ t.suggestions, r.suggestion.id ≠ s.id
  pinned : Pinned t.reports s
  author : (∃ now x, input = .automatic now x ∧ s.origin = "automatic_comparison" ∧
      s.sessionId = x.sessionId ∧ s.snapshotId = x.snapshotId) ∨
    ∃ seen id now request, input = .create seen id now request ∧ s.origin = "member" ∧
      seen.member.room.SeesSession s.authorId s.sessionId

/-- The columns that no update writes. -/
structure SameContent (s s' : SuggestionRow) : Prop where
  eq : s' = { s with
    status := s'.status
    resolvedBy := s'.resolvedBy
    resolvedAt := s'.resolvedAt }

section Pins

variable {t t' : ReviewTables} {r : ReviewRow}

theorem SameContent.refl (s : SuggestionRow) : SameContent s s := ⟨rfl⟩

theorem SameContent.trans {s s' s'' : SuggestionRow} (h : SameContent s s')
    (h' : SameContent s' s'') : SameContent s s'' := by
  refine ⟨h'.eq.trans ?_⟩
  rw [h.eq]

/-- The pins are among the columns that stay. -/
theorem AddedBy.of_sameContent {input : ReviewInput} {s s' : SuggestionRow} (h : AddedBy t input s)
    (hsame : SameContent s s') : AddedBy t input s' := by
  rw [hsame.eq]
  exact ⟨h.fresh, ⟨h.pinned.session, h.pinned.hash, h.pinned.anchor⟩, h.author⟩

/-- A row after a call is one from before with the same content, or has come in with the call. -/
theorem row_back (h : r ∈ (reviewMachine.step t input).2.suggestions) :
    (∃ r₀ ∈ t.suggestions, SameContent r₀.suggestion r.suggestion) ∨
      AddedBy t input r.suggestion := by
  cases input with
  | create seen id now request =>
    rcases step_create t seen id now request with ⟨e, hstep⟩ | ⟨s, t', hcreate, hstep⟩
    · rw [hstep] at h
      exact Or.inl ⟨r, h, SameContent.refl _⟩
    · rw [hstep] at h
      obtain ⟨roomId, report, hprepare, hadmitted, hfresh, -, rfl⟩ := create_eq_ok.mp hcreate
      rcases List.mem_append.mp h with h | h
      · exact Or.inl ⟨r, h, SameContent.refl _⟩
      · rw [List.mem_singleton.mp h]
        have hmember := (prepareSuggestion_eq_ok hprepare).2.2.1
        exact Or.inr ⟨hfresh, (admitRow_eq_ok.mp hadmitted).2.1,
          Or.inr ⟨seen, id, now, request, rfl, rfl, hmember⟩⟩
  | resolve seen now id actorId decision =>
    left
    rcases step_resolve t seen now id actorId decision with ⟨e, hstep⟩ | ⟨s, t', hresolve, hstep⟩
    · rw [hstep] at h
      exact ⟨r, h, SameContent.refl _⟩
    · rw [hstep] at h
      obtain ⟨_, _, _, -, -, -, -, -, -, -, rfl⟩ := resolve_eq_ok hresolve
      rcases mem_updateWhere.mp h with ⟨r₀, hr₀, -, rfl⟩ | ⟨h, -⟩
      · exact ⟨r₀, hr₀, ⟨rfl⟩⟩
      · exact ⟨r, h, SameContent.refl _⟩
  | automatic now x =>
    rcases step_automatic t now x with ⟨e, hstep⟩ | ⟨t', heffect, hstep⟩
    · rw [hstep] at h
      exact Or.inl ⟨r, h, SameContent.refl _⟩
    · rw [hstep] at h
      -- the effect leaves the reports alone, and each row it has added was not there before
      have hinvariant := foldlM_invariant (fun _ a ↦ a.reports = t.reports ∧
        t.suggestions ⊆ a.suggestions ∧ ∀ r ∈ a.suggestions, r ∈ t.suggestions ∨
          AddedBy t (.automatic now x) r.suggestion) heffect
        ⟨rfl, List.Subset.refl _, fun r hr ↦ Or.inl hr⟩ ?_
      · exact (hinvariant.2.2 r h).imp_left fun hr ↦ ⟨r, hr, SameContent.refl _⟩
      · intro _ p a a' ⟨hreports, hsub, hrows⟩ hadd
        obtain ⟨hadmitted, ⟨-, rfl⟩ | ⟨-, hfresh, rfl⟩⟩ := addProposal_eq_ok.mp hadd
        · exact ⟨hreports, hsub, hrows⟩
        · refine ⟨hreports, fun r hr ↦ List.mem_append_left _ (hsub hr), fun r hr ↦ ?_⟩
          rcases List.mem_append.mp hr with hr | hr
          · exact hrows r hr
          · rw [List.mem_singleton.mp hr]
            refine Or.inr ⟨fun r' hr' ↦ hfresh r' (hsub hr'), ?_, Or.inl ⟨now, x, rfl, rfl, rfl, rfl⟩⟩
            exact hreports ▸ (admitRow_eq_ok.mp hadmitted).2.1
  | elsewhere reports activity => exact Or.inl ⟨r, h, SameContent.refl _⟩

end Pins

/-! ## A run -/

/-- The host of `reportedSession` adds a suggestion. -/
def hostCreates : ReviewInput := .create (.alone reportedSession) 90 0 hostRequest

/-- The host accepts it. -/
def hostAccepts : ReviewInput := .resolve reportedSession 1 90 1 "accepted"

theorem legal_hostAccepts :
    reviewMachine.Legal (noReviews reportedSession) ([hostCreates] ++ [hostAccepts]) :=
  ⟨nofun, trivial, trivial⟩

theorem mem_hostCreates : hostRequest.row 90 0 reportedPin ∈
    (reviewMachine.exec (noReviews reportedSession) [hostCreates]).suggestions := by
  have hkeys : (reportedSession.room.generationSnapshots.map (·.id)).Nodup := by decide
  have hreport := (prepareSuggestion_eq_ok prepareSuggestion_hostRequest).2.2.2.1
  obtain ⟨hsession, hexpected, hhash⟩ := pinned_of_loadReportIdentity hkeys hreport
  have hpinned : Pinned (noReviews reportedSession).reports
      (hostRequest.row 90 0 reportedPin).suggestion := ⟨hsession, hexpected, nofun⟩
  have hcreate := create_of_pinned prepareSuggestion_hostRequest hpinned hhash nofun
  rw [require_of (by decide), ok_bind, require_of (by decide), ok_bind] at hcreate
  rw [hostCreates, Machine.exec_cons, step_create_of_ok hcreate]
  exact List.mem_singleton_self _

/-! ## Results -/

/-- **A suggestion is resolved at most once.** It stays as it was created until a call of the host of its
session settles it, who was a member of the room, and from then on it stays as that call left it. -/
theorem resolved_once {reports : ReportRows} {before after : List ReviewInput}
    (h : reviewMachine.Legal (noReviews reports) (before ++ after)) {r : ReviewRow}
    (hr : r ∈ (reviewMachine.exec (noReviews reports) before).suggestions) :
    (r ∈ (reviewMachine.exec (noReviews reports) (before ++ after)).suggestions ∧
      resolutions r.suggestion.id
        (reviewMachine.history (reviewMachine.exec (noReviews reports) before) after) = []) ∨
    ∃ r' ∈ (reviewMachine.exec (noReviews reports) (before ++ after)).suggestions,
      ∃ entry, SettledBy r r' entry ∧
        resolutions r.suggestion.id
          (reviewMachine.history (reviewMachine.exec (noReviews reports) before) after) = [entry] := by
  obtain ⟨hbefore, hafter⟩ := Machine.along_append.mp h
  rw [Machine.exec_append]
  exact row_run (wellformed_run (wellformed_noReviews reports) hbefore) hafter hr

theorem resolved_once_hostAccepts :
    (hostRequest.row 90 0 reportedPin ∈ (reviewMachine.exec (noReviews reportedSession)
        ([hostCreates] ++ [hostAccepts])).suggestions ∧
      resolutions (hostRequest.row 90 0 reportedPin).suggestion.id (reviewMachine.history
        (reviewMachine.exec (noReviews reportedSession) [hostCreates]) [hostAccepts]) = []) ∨
    ∃ r' ∈ (reviewMachine.exec (noReviews reportedSession)
        ([hostCreates] ++ [hostAccepts])).suggestions,
      ∃ entry, SettledBy (hostRequest.row 90 0 reportedPin) r' entry ∧
        resolutions (hostRequest.row 90 0 reportedPin).suggestion.id (reviewMachine.history
          (reviewMachine.exec (noReviews reportedSession) [hostCreates]) [hostAccepts]) = [entry] :=
  resolved_once (r := hostRequest.row 90 0 reportedPin) legal_hostAccepts mem_hostCreates

/-- **The ledger and the suggestions agree** in every reachable state: the entries about suggestions are
one creation for each row and one resolution for each row that is not open, by whom it was resolved. No
resolution is refused by a constraint. -/
theorem ledger_agrees {reports : ReportRows} {inputs : List ReviewInput}
    (h : reviewMachine.Legal (noReviews reports) inputs) :
    let t := reviewMachine.exec (noReviews reports) inputs
    t.entries.Perm (t.suggestions.flatMap (entriesOf ·.suggestion)) ∧
      (t.suggestions.map (·.suggestion.id)).Nodup ∧
      (∀ r ∈ t.suggestions, r.suggestion.status = "open" ↔
        r.suggestion.resolvedBy = none ∧ r.suggestion.resolvedAt = none) ∧
      ∀ seen now id actorId decision constraint,
        resolve seen now id actorId decision t ≠ .error (.database constraint) := by
  intro t
  have hw : Wellformed t := wellformed_run (wellformed_noReviews reports) h
  refine ⟨hw.ledger, hw.ids, fun r hr ↦ ?_, ?_⟩
  · exact (require_bind_eq_ok.mp (hw.checks r hr)).1
  · intro seen now id actorId decision constraint hresolve
    rw [resolve] at hresolve
    cases hstate : decisionState decision with
    | none =>
      rw [hstate] at hresolve
      cases hresolve
    | some state =>
      rw [hstate] at hresolve
      simp only at hresolve
      split at hresolve
      · cases hresolve
      · next r session hfound =>
        obtain ⟨r', hr', hsession⟩ := Option.bind_eq_some_iff.mp hfound
        obtain ⟨session', -, heq⟩ := Option.map_eq_some_iff.mp hsession
        cases heq
        have hcheck : checkRow (settle decision actorId now r) = .ok ⟨⟩ := checkRow_settle
          (hw.checks r (List.mem_of_find?_eq_some hr')) (decisionState_eq_some hstate)
        rw [hcheck, recordEvent_eq] at hresolve
        by_cases hhost : session.hostId = actorId ∧ seen.room.SeesRoom actorId session.roomId
        · by_cases hopen : r.suggestion.status = "open"
          · rw [require_of hhost, require_of hopen] at hresolve
            cases hresolve
          · rw [require_of hhost, require_of_not hopen] at hresolve
            cases hresolve
        · rw [require_of_not hhost] at hresolve
          cases hresolve

theorem ledger_agrees_hostAccepts :
    (reviewMachine.exec (noReviews reportedSession) ([hostCreates] ++ [hostAccepts])).entries.Perm
      ((reviewMachine.exec (noReviews reportedSession)
        ([hostCreates] ++ [hostAccepts])).suggestions.flatMap (entriesOf ·.suggestion)) :=
  (ledger_agrees legal_hostAccepts).1

/-- **Every suggestion is pinned to a report of its session.** Whatever the calls saw and in whatever
order they came, a row that is there has come in at one step of the run, when its snapshot was one of its
session, its hash the hash of the two documents of that snapshot, and its anchor one that the snapshot
pins. -/
theorem pinned_when_added {reports : ReportRows} {inputs : List ReviewInput} {r : ReviewRow}
    (h : r ∈ (reviewMachine.exec (noReviews reports) inputs).suggestions) :
    ∃ before input after, inputs = before ++ input :: after ∧
      AddedBy (reviewMachine.exec (noReviews reports) before) input r.suggestion := by
  -- from the last call backwards
  induction inputs using List.reverseRecOn generalizing r with
  | nil => exact absurd h List.not_mem_nil
  | append_singleton inputs input ih =>
    rw [Machine.exec_concat] at h
    rcases row_back h with ⟨r₀, hr₀, hsame⟩ | hadded
    · obtain ⟨before, i, after, rfl, hadded⟩ := ih hr₀
      exact ⟨before, i, after ++ [input], by simp, hadded.of_sameContent hsame⟩
    · exact ⟨inputs, input, [], rfl, hadded⟩

theorem pinned_when_added_hostCreates :
    ∃ before input after, [hostCreates] = before ++ input :: after ∧
      AddedBy (reviewMachine.exec (noReviews reportedSession) before) input
        (hostRequest.row 90 0 reportedPin).suggestion :=
  pinned_when_added mem_hostCreates

end Reviews

end MeetingRag
