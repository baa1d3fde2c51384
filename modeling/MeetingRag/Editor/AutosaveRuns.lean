import MeetingRag.Editor.Autosave

/-!
# What the autosave keeps

Every step either leaves the blocks on the screen, records how it changed them, or brings a copy of the
document from the server. Only the last kind can lose an edit, and `Undisturbed` says which copies do
not. The same condition keeps the saves of the page from getting in each other's way.
-/

open Outcome

namespace MeetingRag

/-! ## Edits -/

theorem blockOf_recordEdits {before after : List MergedDocumentBlock} {edits : List LocalEdit}
    (h : ∀ e ∈ edits, blockOf before e.blockId = e.block) :
    ∀ e ∈ recordEdits before after edits, blockOf after e.blockId = e.block := by
  intro e he
  rcases List.mem_append.mp he with hkept | hnew
  · obtain ⟨hmem, hsame⟩ := List.mem_filter.mp hkept
    exact (of_decide_eq_true hsame).symm.trans (h e hmem)
  · obtain ⟨blockId, -, rfl⟩ := List.mem_map.mp hnew
    rfl

theorem mem_of_mem_settle {blocks : List MergedDocumentBlock} {edits : List LocalEdit}
    {e : LocalEdit} (h : e ∈ settle blocks edits) : e ∈ edits :=
  List.mem_of_mem_filter h

/-! ## The claim -/

/-- What the user relies on. -/
structure EditsKept (s : EditingState) : Prop where
  /-- Every edit the user made last is on the screen until its fate is known. -/
  shown : ∀ e ∈ s.unsettled, blockOf s.blocks e.blockId = e.block
  /-- "Saved" is said of the blocks on the screen. -/
  saved : s.state = .saved → s.acknowledged = some s.blocks
  /-- A user who is alone meets no conflict. -/
  alone : s.othersEdited = false → s.conflicted = false

/-- The steps that leave the edits alone. A save is sent only when none is on its way; a suggestion
that changes the blocks is not accepted over a "saved"; a save is acknowledged while the screen still
shows what it carried; and a refetch brings no older version, and a newer one only where it changes
nothing or there is nothing it could replace. -/
def Undisturbed (toLowerCase : String → String) (s : EditingState) : EditingEvent → Prop
  | .debounceExpires | .saveNow => s.calls = []
  | .acceptSuggestion suggestion => s.resolving = false →
      applySuggestionToBlocks toLowerCase s.blocks suggestion ≠ none →
        s.calls = [] ∧ s.state ≠ .saved
  | .replyToSave i => ∀ call ∈ s.calls[i]?, ∀ version, call.reply = some (.saved version) →
      s.blocks = call.blocks
  | .deliverFetch i => ∀ data ∈ s.fetches[i]?, s.syncedVersion ≤ data.version ∧
      (data.version = s.syncedVersion ∨ data.blocks = s.blocks ∨
        s.unsettled = [] ∧ s.state ≠ .saved)
  | _ => True

/-! ## The invariant -/

/-- What the saves on their way say of the version of the server, for the version in the cache. -/
inductive CallStatus (cached server : ℕ) : List SaveCall → Prop
  | quiet (current : cached = server) : CallStatus cached server []
  | sent (call : SaveCall) (unserved : call.reply = none) (expected : call.expectedVersion = server)
      (current : cached = server) : CallStatus cached server [call]
  | stored (call : SaveCall) (served : call.reply = some (.saved server)) :
      CallStatus cached server [call]
  | refused (call : SaveCall) (served : call.reply = some .refused) (current : cached = server) :
      CallStatus cached server [call]

theorem CallStatus.singleton {cached server : ℕ} {calls : List SaveCall} {call : SaveCall} {i : ℕ}
    (h : CallStatus cached server calls) (hcall : calls[i]? = some call) :
    calls = [call] ∧ i = 0 := by
  have honly : ∀ c : SaveCall, [c][i]? = some call → [c] = [call] ∧ i = 0 := by
    intro c hc
    rw [List.getElem?_singleton] at hc
    split at hc
    · next hi => exact ⟨by rw [Option.some.inj hc], hi⟩
    · exact nomatch hc
  cases h with
  | quiet => exact nomatch hcall
  | sent c => exact honly c hcall
  | stored c => exact honly c hcall
  | refused c => exact honly c hcall

theorem CallStatus.of_unserved {cached server : ℕ} {call : SaveCall}
    (h : CallStatus cached server [call]) (hreply : call.reply = none) :
    call.expectedVersion = server ∧ cached = server := by
  cases h with
  | sent _ _ expected current => exact ⟨expected, current⟩
  | stored _ served => exact nomatch hreply.symm.trans served
  | refused _ served => exact nomatch hreply.symm.trans served

/-- The versions of a page whose user is alone. -/
structure Solo (s : EditingState) : Prop where
  calls : CallStatus s.data.version s.server.version s.calls
  fetches : ∀ data ∈ s.fetches, data.version ≤ s.server.version
  conflicted : s.conflicted = false

/-- What every undisturbed step carries over. -/
structure EditingInv (s : EditingState) : Prop where
  shown : ∀ e ∈ s.unsettled, blockOf s.blocks e.blockId = e.block
  saved : s.state = .saved → s.acknowledged = some s.blocks
  synced : s.syncedVersion = s.data.version
  solo : s.othersEdited = false → Solo s

/-- A step that leaves the versions and the requests alone. -/
theorem Solo.frame {s t : EditingState} (h : Solo s) (hdata : t.data = s.data)
    (hserver : t.server = s.server) (hcalls : t.calls = s.calls) (hfetches : t.fetches = s.fetches)
    (hconflicted : t.conflicted = s.conflicted) : Solo t where
  calls := by
    rw [hdata, hserver, hcalls]
    exact h.calls
  fetches := by
    rw [hserver, hfetches]
    exact h.fetches
  conflicted := hconflicted.trans h.conflicted

theorem EditingInv.kept {s : EditingState} (h : EditingInv s) : EditsKept s :=
  ⟨h.shown, h.saved, fun halone ↦ (h.solo halone).conflicted⟩

theorem editingInv_open (d : ServerDocument) : EditingInv (openEditor d) where
  shown := nofun
  saved := nofun
  synced := rfl
  solo _ := ⟨.quiet rfl, nofun, rfl⟩

namespace EditingState

variable {s : EditingState}

/-! ## Steps of the page -/

theorem solo_send {token : Option ℕ} (h : Solo s) (hcalls : s.calls = []) : Solo (s.send token) := by
  refine ⟨?_, h.fetches, h.conflicted⟩
  have hcurrent : s.data.version = s.server.version := by
    have hstatus := h.calls
    rw [hcalls] at hstatus
    cases hstatus with
    | quiet current => exact current
  rw [send, hcalls, List.nil_append]
  exact .sent _ rfl hcurrent hcurrent

theorem inv_run (h : EditingInv s) (hcalls : s.calls = []) : EditingInv s.run where
  shown := h.shown
  saved := nofun
  synced := h.synced
  solo halone := by
    have hstarted :
        Solo { s with runToken := s.runToken + 1, state := .saving, debounce := false } :=
      (h.solo halone).frame rfl rfl rfl rfl rfl
    exact solo_send hstarted hcalls

theorem inv_changeText (h : EditingInv s) (blockId text : String) :
    EditingInv (s.changeText blockId text) where
  shown := blockOf_recordEdits h.shown
  saved := nofun
  synced := h.synced
  solo halone := (h.solo halone).frame rfl rfl rfl rfl rfl

theorem inv_acceptSuggestion {toLowerCase : String → String} {suggestion : AiSuggestion}
    (h : EditingInv s) (hsafe : Undisturbed toLowerCase s (.acceptSuggestion suggestion)) :
    EditingInv (s.acceptSuggestion toLowerCase suggestion) := by
  rw [acceptSuggestion]
  split
  · exact h
  next hresolving =>
  split
  · next blocks happly =>
    obtain ⟨hcalls, hstate⟩ := hsafe (Bool.eq_false_iff.mpr hresolving)
      (happly ▸ Option.some_ne_none blocks)
    refine ⟨blockOf_recordEdits h.shown, fun hsaved ↦ absurd hsaved hstate, h.synced,
      fun halone ↦ ?_⟩
    have hedited : Solo { s.edited blocks with resolving := true } :=
      (h.solo halone).frame rfl rfl rfl rfl rfl
    exact solo_send hedited hcalls
  · exact ⟨h.shown, h.saved, h.synced,
      fun halone ↦ (h.solo halone).frame rfl rfl rfl rfl rfl⟩

/-! ## Steps of the server -/

/-- The server answers the only save of a lone user, and stores it if it has blocks. -/
theorem solo_serveSave (h : Solo s) (i : ℕ) : Solo (s.serveSave i) := by
  rw [serveSave]
  split
  · next token expectedVersion blocks hcall =>
    obtain ⟨hcalls, rfl⟩ := h.calls.singleton hcall
    have hstatus := h.calls
    rw [hcalls] at hstatus
    obtain ⟨hexpected, hcurrent⟩ := hstatus.of_unserved rfl
    dsimp only at hexpected
    rw [hcalls, ServerDocument.save]
    by_cases hempty : blocks = []
    · rw [if_pos hempty]
      exact ⟨.refused _ rfl hcurrent, h.fetches, by rw [h.conflicted]; rfl⟩
    · rw [if_neg hempty, if_pos hexpected.symm]
      refine ⟨.stored _ rfl, fun data hdata ↦ ?_, by rw [h.conflicted]; rfl⟩
      exact (h.fetches data hdata).trans (Nat.le_succ _)
  · exact h

theorem inv_serveSave (h : EditingInv s) (i : ℕ) : EditingInv (s.serveSave i) := by
  have hsolo : s.othersEdited = false → Solo (s.serveSave i) := fun halone ↦
    solo_serveSave (h.solo halone) i
  rw [serveSave] at hsolo ⊢
  split
  · next token expectedVersion blocks hcall =>
    rw [hcall] at hsolo
    exact ⟨h.shown, h.saved, h.synced, hsolo⟩
  · exact h

theorem inv_serveFetch (h : EditingInv s) : EditingInv s.serveFetch where
  shown := h.shown
  saved := h.saved
  synced := h.synced
  solo halone := by
    obtain ⟨hcalls, hfetches, hconflicted⟩ := h.solo halone
    refine ⟨hcalls, fun data hdata ↦ ?_, hconflicted⟩
    rcases List.mem_append.mp hdata with hold | hnew
    · exact hfetches data hold
    · rw [List.mem_singleton.mp hnew]
      exact le_refl s.server.version

/-! ## Copies that reach the page -/

theorem blocks_synchronize (h : s.syncedVersion = s.data.version ∨ s.blocks = s.data.blocks) :
    s.synchronize.blocks = s.blocks := by
  rw [synchronize]
  split
  · rfl
  · next hversion => exact (h.resolve_left hversion).symm

theorem synced_synchronize : s.synchronize.syncedVersion = s.synchronize.data.version := by
  rw [synchronize]
  split
  · next hversion => exact hversion
  · rfl

/-- The effect touches the blocks and the version it has seen, and nothing else. -/
theorem synchronize_frame : ∃ version blocks,
    s.synchronize = { s with syncedVersion := version, blocks := blocks } := by
  rw [synchronize]
  split
  · exact ⟨s.syncedVersion, s.blocks, rfl⟩
  · exact ⟨s.data.version, s.data.blocks, rfl⟩

/-- A save that is acknowledged while the screen shows what it carried. -/
theorem inv_saveSucceeded {call : SaveCall} {version : ℕ}
    (h : ∀ e ∈ s.unsettled, blockOf s.blocks e.blockId = e.block)
    (hblocks : s.blocks = call.blocks)
    (hsolo : s.othersEdited = false → Solo { s with data := ⟨version, call.blocks⟩ }) :
    EditingInv (s.saveSucceeded call version) := by
  set cached : EditingState := { s with data := ⟨version, call.blocks⟩ } with hcached
  have hshown : cached.synchronize.blocks = call.blocks :=
    (blocks_synchronize (Or.inr hblocks)).trans hblocks
  have hsynced := synced_synchronize (s := cached)
  obtain ⟨seen, blocks, hframe⟩ := synchronize_frame (s := cached)
  rw [saveSucceeded, ← hcached]
  refine ⟨fun e he ↦ ?_, fun _ ↦ congrArg some hshown.symm, hsynced, fun halone ↦ ?_⟩
  · rw [hshown, ← hblocks]
    exact h e (mem_of_mem_settle he)
  · rw [hframe] at halone ⊢
    exact (hsolo halone).frame rfl rfl rfl rfl rfl

theorem inv_saveFailed {call : SaveCall} (h : EditingInv s) : EditingInv (s.saveFailed call) := by
  have hsettled : ∀ e ∈ settle call.blocks s.unsettled, blockOf s.blocks e.blockId = e.block :=
    fun e he ↦ h.shown e (mem_of_mem_settle he)
  rw [saveFailed]
  split
  · exact ⟨hsettled, h.saved, h.synced,
      fun halone ↦ (h.solo halone).frame rfl rfl rfl rfl rfl⟩
  · split
    · exact ⟨hsettled, nofun, h.synced,
        fun halone ↦ (h.solo halone).frame rfl rfl rfl rfl rfl⟩
    · exact h

/-- What is known of the only save of a lone user, once its reply is there. -/
theorem solo_reply {call : SaveCall} {reply : SaveReply} {i : ℕ} (h : Solo s)
    (hcall : s.calls[i]? = some call) (hreply : call.reply = some reply) :
    s.calls.eraseIdx i = [] ∧ (reply = .saved s.server.version ∨
      reply = .refused ∧ s.data.version = s.server.version) := by
  obtain ⟨hcalls, rfl⟩ := h.calls.singleton hcall
  have hstatus := h.calls
  rw [hcalls] at hstatus ⊢
  refine ⟨rfl, ?_⟩
  cases hstatus with
  | sent _ unserved => exact nomatch unserved.symm.trans hreply
  | stored _ served => exact Or.inl (Option.some.inj (hreply.symm.trans served))
  | refused _ served current => exact Or.inr ⟨Option.some.inj (hreply.symm.trans served), current⟩

theorem inv_replyToSave {toLowerCase : String → String} {i : ℕ} (h : EditingInv s)
    (hsafe : Undisturbed toLowerCase s (.replyToSave i)) : EditingInv (s.replyToSave i) := by
  rw [replyToSave]
  split
  next call hcall =>
    dsimp only
    split
    · next version hreply =>
      have hblocks := hsafe call hcall version hreply
      refine inv_saveSucceeded h.shown hblocks fun halone ↦ ?_
      obtain ⟨hrest, hstored | ⟨hrefused, -⟩⟩ := solo_reply (h.solo halone) hcall hreply
      · refine ⟨?_, (h.solo halone).fetches, (h.solo halone).conflicted⟩
        dsimp only
        rw [hrest, SaveReply.saved.inj hstored]
        exact .quiet rfl
      · exact nomatch hrefused
    · next reply hother hreply =>
      refine inv_saveFailed ⟨h.shown, h.saved, h.synced, fun halone ↦ ?_⟩
      obtain ⟨hrest, hstored | ⟨-, hcurrent⟩⟩ := solo_reply (h.solo halone) hcall hreply
      · exact absurd hstored (hother _)
      · refine ⟨?_, (h.solo halone).fetches, (h.solo halone).conflicted⟩
        dsimp only
        rw [hrest]
        exact .quiet hcurrent
    · exact h
  next => exact h

/-- The version of a lone user's cache stays where it is when nothing older arrives. -/
theorem solo_deliver {data : ServerDocument} {fetches : List ServerDocument} (h : Solo s)
    (hle : s.data.version ≤ data.version) (hserver : data.version ≤ s.server.version)
    (hfetches : ∀ d ∈ fetches, d ∈ s.fetches) :
    Solo { s with data := data, fetches := fetches } := by
  refine ⟨?_, fun d hd ↦ h.fetches d (hfetches d hd), h.conflicted⟩
  have hstatus := h.calls
  have hcurrent : s.data.version = s.server.version → data.version = s.server.version :=
    fun heq ↦ le_antisymm hserver (heq ▸ hle)
  dsimp only
  generalize s.calls = calls at hstatus ⊢
  cases hstatus with
  | quiet current => exact .quiet (hcurrent current)
  | sent call unserved expected current => exact .sent call unserved expected (hcurrent current)
  | stored call served => exact .stored call served
  | refused call served current => exact .refused call served (hcurrent current)

theorem inv_deliverFetch {toLowerCase : String → String} {i : ℕ} (h : EditingInv s)
    (hsafe : Undisturbed toLowerCase s (.deliverFetch i)) : EditingInv (s.deliverFetch i) := by
  rw [deliverFetch]
  split
  next data hdata =>
    obtain ⟨hle, hcopy⟩ := hsafe data hdata
    set cached : EditingState := { s with data := data, fetches := s.fetches.eraseIdx i } with hcached
    have hsynced := synced_synchronize (s := cached)
    have hsolo : s.othersEdited = false → Solo cached := fun halone ↦
      solo_deliver (h.solo halone) (h.synced ▸ hle)
        ((h.solo halone).fetches data (List.mem_of_getElem? hdata)) fun _ ↦ List.mem_of_mem_eraseIdx
    have hkept : cached.synchronize.blocks = s.blocks ∨ s.unsettled = [] ∧ s.state ≠ .saved := by
      rcases hcopy with hversion | hblocks | hidle
      · exact Or.inl (blocks_synchronize (Or.inl hversion.symm))
      · exact Or.inl (blocks_synchronize (Or.inr hblocks.symm))
      · exact Or.inr hidle
    obtain ⟨seen, blocks, hframe⟩ := synchronize_frame (s := cached)
    dsimp only
    rw [hframe] at hsynced hkept ⊢
    refine ⟨fun e he ↦ ?_, fun hsaved ↦ ?_, hsynced, fun halone ↦ ?_⟩
    · rcases hkept with hblocks | ⟨hnone, -⟩
      · exact (congrArg (blockOf · e.blockId) hblocks).trans (h.shown e he)
      · exact absurd (hnone ▸ he) List.not_mem_nil
    · rcases hkept with hblocks | ⟨-, hstate⟩
      · exact (h.saved hsaved).trans (congrArg some hblocks.symm)
      · exact absurd hsaved hstate
    · exact (hsolo halone).frame rfl rfl rfl rfl rfl
  next => exact h

end EditingState

/-! ## Runs -/

/-- **One undisturbed step.** -/
theorem editingInv_step {toLowerCase : String → String} {s : EditingState} {e : EditingEvent}
    (h : EditingInv s) (hsafe : Undisturbed toLowerCase s e) :
    EditingInv ((editing toLowerCase).step s e).2 := by
  cases e with
  | changeText blockId text => exact EditingState.inv_changeText h blockId text
  | debounceExpires => exact EditingState.inv_run h hsafe
  | saveNow => exact EditingState.inv_run h hsafe
  | acceptSuggestion suggestion => exact EditingState.inv_acceptSuggestion h hsafe
  | suggestionResolved =>
    exact ⟨h.shown, h.saved, h.synced,
      fun halone ↦ (h.solo halone).frame rfl rfl rfl rfl rfl⟩
  | serveSave i => exact EditingState.inv_serveSave h i
  | replyToSave i => exact EditingState.inv_replyToSave h hsafe
  | serveFetch => exact EditingState.inv_serveFetch h
  | deliverFetch i => exact EditingState.inv_deliverFetch h hsafe
  | saveElsewhere blocks => exact ⟨h.shown, h.saved, h.synced, nofun⟩

/-- **An undisturbed run keeps the edits.** -/
theorem edits_kept {toLowerCase : String → String} {d : ServerDocument} {es : List EditingEvent}
    (h : (editing toLowerCase).Along (Undisturbed toLowerCase) (openEditor d) es) :
    EditsKept ((editing toLowerCase).exec (openEditor d) es) :=
  (h.invariant (editingInv_open d) fun _ _ hinv hsafe ↦ editingInv_step hinv hsafe).kept

/-- The document of the runs below. -/
def oneParagraph : ServerDocument := ⟨1, [.paragraph "b" "draft" none]⟩

def pinnedEdit : AiSuggestion := ⟨"s", .edit, none, some "b", "two"⟩

/-- An edit that is saved and acknowledged, and a suggestion accepted after the next one. -/
theorem edits_kept_oneParagraph : EditsKept ((editing id).exec (openEditor oneParagraph)
    [.changeText "b" "one", .debounceExpires, .serveSave 0, .replyToSave 0, .changeText "b" "three",
      .acceptSuggestion pinnedEdit]) := by
  refine edits_kept ⟨trivial, rfl, trivial, fun call hcall version _ ↦ ?_, trivial,
    fun _ _ ↦ ⟨rfl, ?_⟩, trivial⟩
  · cases hcall
    rfl
  · decide

/-- **Edits are lost, "saved" is said too early, and a lone user meets conflicts.** Text typed while a
save is on its way is overwritten by its reply; a suggestion accepted after a save leaves the
indicator; a second `saveNow` carries the version of the first. -/
theorem edits_not_kept :
    (¬∀ d es, (editing id).Legal (openEditor d) es →
      ∀ e ∈ ((editing id).exec (openEditor d) es).unsettled,
        blockOf ((editing id).exec (openEditor d) es).blocks e.blockId = e.block) ∧
    (¬∀ d es, (editing id).Legal (openEditor d) es →
      ((editing id).exec (openEditor d) es).state = .saved →
      ((editing id).exec (openEditor d) es).acknowledged =
        some ((editing id).exec (openEditor d) es).blocks) ∧
    ¬∀ d es, (editing id).Legal (openEditor d) es →
      ((editing id).exec (openEditor d) es).othersEdited = false →
      ((editing id).exec (openEditor d) es).conflicted = false := by
  refine ⟨fun h ↦ ?_, fun h ↦ ?_, fun h ↦ ?_⟩
  · have hlost := h oneParagraph [.changeText "b" "one", .debounceExpires, .changeText "b" "two",
      .serveSave 0, .replyToSave 0] ⟨trivial, rfl, trivial, trivial, trivial, trivial⟩
      ⟨"b", some (.paragraph "b" "two" none)⟩ (by decide +kernel)
    exact absurd hlost (by decide +kernel)
  · have hearly := h oneParagraph [.changeText "b" "one", .saveNow, .serveSave 0, .replyToSave 0,
      .acceptSuggestion pinnedEdit] ⟨trivial, trivial, trivial, trivial, trivial, trivial⟩
      (by decide +kernel)
    exact absurd hearly (by decide +kernel)
  · have hconflict := h oneParagraph [.changeText "b" "one", .saveNow, .saveNow, .serveSave 0,
      .serveSave 1] ⟨trivial, trivial, trivial, trivial, trivial, trivial⟩ (by decide +kernel)
    exact absurd hconflict (by decide +kernel)

end MeetingRag
