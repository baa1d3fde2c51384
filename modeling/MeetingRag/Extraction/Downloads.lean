import MeetingRag.Extraction.Blobs

/-!
# Downloading an original

A member asks for the original of a revision. The response is announced with the size of its row
before anything is read: only then does `stream_original` open the blob, and before each chunk it
asks whether the member may still have the revision, ends that transaction and reads. Everybody else
goes on between any two of these steps. Memberships end, submissions are deleted, blobs are replaced.

An open file keeps its bytes whatever happens to its name: the store writes a file before it has a
key and never after.

What has been received is always the first chunks of bytes with the size and the hash of the row
(`received_original`), and whoever loses the revision gets one chunk more at the most
(`revoked_received`).
-/

open Outcome Table Text Py

/-! ## Counting the steps of a run -/

/-- **The counting rule.** A property of a state and of the number of chosen steps before it holds
where a run ends. -/
theorem Machine.Along.counted {σ ι ο : Type*} {M : Machine σ ι ο} {C : σ → ι → Prop} {s : σ}
    {is : List ι} {P : ℕ → σ → Prop} {chosen : ι → Bool} (h : M.Along C s is) (start : P 0 s)
    (step : ∀ m s i, P m s → C s i → P (m + (if chosen i then 1 else 0)) (M.step s i).2) :
    P (is.countP chosen) (M.exec s is) := by
  suffices hgeneral : ∀ m, P m s → P (m + is.countP chosen) (M.exec s is) by
    simpa using hgeneral 0 start
  clear start
  induction is generalizing s with
  | nil => exact fun m hm ↦ hm
  | cons i is ih =>
    intro m hm
    have hrest := ih h.2 _ (step m s i hm h.1)
    rwa [Nat.add_assoc, Nat.add_comm (if chosen i then 1 else 0), ← List.countP_cons] at hrest

namespace MeetingRag

/-! ## Chunks -/

/-- `READ_CHUNK_BYTES`. -/
def readChunkBytes : ℕ := 64 * 1024

/-- The chunk with the given number. -/
def chunkAt (data : List UInt8) (k : ℕ) : List UInt8 :=
  (data.drop (readChunkBytes * k)).take readChunkBytes

/-- The first `n` chunks. -/
def firstChunks (data : List UInt8) (n : ℕ) : List (List UInt8) := (List.range n).map (chunkAt data)

/-- How many chunks there are. -/
def chunkCount (size : ℕ) : ℕ := (size + (readChunkBytes - 1)) / readChunkBytes

theorem firstChunks_succ (data : List UInt8) (n : ℕ) :
    firstChunks data (n + 1) = firstChunks data n ++ [chunkAt data n] := by
  rw [firstChunks, List.range_succ, List.map_append]
  rfl

theorem flatten_firstChunks (data : List UInt8) (n : ℕ) :
    (firstChunks data n).flatten = data.take (readChunkBytes * n) := by
  induction n with
  | zero => rfl
  | succ n ih =>
    rw [firstChunks_succ, List.flatten_append, ih, Nat.mul_succ, List.take_add]
    simp [chunkAt]

theorem length_chunkAt (data : List UInt8) (k : ℕ) :
    (chunkAt data k).length = min readChunkBytes (data.length - readChunkBytes * k) := by
  rw [chunkAt, List.length_take, List.length_drop]

/-! ## The request -/

/-- `OriginalDownload`. -/
structure OriginalDownload where
  filename : String
  mimeType : MediaType
  byteSize : ℕ
  storageKey : String
  sha256 : String
deriving DecidableEq, Repr

/-- `FileSubmissionService.download_original`. -/
def downloadOriginal (t : FileTables) (revisionId actorId : UUID) :
    Except Error OriginalDownload :=
  match retryTarget t revisionId actorId with
  | none => .error (.fileSubmissionAccess "source revision is unavailable")
  | some (r, _) =>
    match r.storageKey with
    | none => .error (.fileSubmissionAccess "source revision is unavailable")
    | some key => .ok ⟨r.filename, r.mimeType, r.byteSize, key, r.sha256⟩

/-- The member may have the revision. -/
def MayDownload (t : FileTables) (revisionId actorId : UUID) : Prop :=
  (retryTarget t revisionId actorId).isSome

instance (t : FileTables) (revisionId actorId : UUID) :
    Decidable (MayDownload t revisionId actorId) :=
  inferInstanceAs (Decidable ((retryTarget t revisionId actorId).isSome = true))

/-- `_require_original_access`. -/
def requireOriginalAccess (t : FileTables) (revisionId actorId : UUID) : Except Error Unit :=
  require (MayDownload t revisionId actorId)
    (.fileSubmissionAccess "source revision is unavailable")

/-! ## The stream -/

/-- A file that `open_regular` has checked, and how far it has been read since. -/
structure OpenSource where
  bytes : List UInt8
  position : ℕ
deriving DecidableEq

/-- `source.read(READ_CHUNK_BYTES)`. -/
def OpenSource.chunk (source : OpenSource) : List UInt8 :=
  (source.bytes.drop source.position).take readChunkBytes

def OpenSource.advance (source : OpenSource) : OpenSource :=
  { source with position := source.position + source.chunk.length }

/-- Where a call of `stream_original` stands. -/
inductive StreamPhase
  /-- The response is announced, and nothing is open. -/
  | announced
  /-- At the head of the loop. -/
  | asking (source : OpenSource)
  /-- Access was granted, and that transaction is over. -/
  | granted (source : OpenSource)
  | returned
  | raised (error : Error)
  /-- The client has gone, and with it the generator. -/
  | closed
deriving DecidableEq

/-- One stream, and the world it reads. -/
structure StreamState where
  tables : FileTables
  blobs : BlobDirectory
  phase : StreamPhase
  /-- What has been yielded. -/
  received : List (List UInt8)

/-- The arguments of `stream_original`. -/
structure StreamCall where
  download : OriginalDownload
  revisionId : UUID
  actorId : UUID
deriving DecidableEq, Repr

/-- What happens next. -/
inductive StreamStep
  | openSource
  | requireAccess
  | readChunk
  | disconnect
  /-- Others commit, and the directory changes. -/
  | elsewhere (tables : FileTables) (blobs : BlobDirectory)

namespace StreamStep

/-- The stream itself goes on. -/
def own : StreamStep → Bool
  | .openSource | .requireAccess | .readChunk => true
  | .disconnect | .elsewhere _ _ => false

/-- A generator is closed where it waits: before it has begun, or at a `yield`. -/
def Enabled (s : StreamState) : StreamStep → Prop
  | .openSource => s.phase = .announced
  | .requireAccess => ∃ source, s.phase = .asking source
  | .readChunk => ∃ source, s.phase = .granted source
  | .disconnect =>
    s.phase = .announced ∨ (s.received ≠ [] ∧ ∃ source, s.phase = .asking source)
  | .elsewhere _ _ => True

end StreamStep

namespace StreamCall

variable (q : StreamCall)

/-- `OriginalDownload.open`. -/
def openSource (s : StreamState) : StreamState :=
  match s.blobs.read q.download.storageKey q.download.byteSize q.download.sha256 with
  | .ok bytes => { s with phase := .asking ⟨bytes, 0⟩ }
  | .error e => { s with phase := .raised e }

def requireAccess (source : OpenSource) (s : StreamState) : StreamState :=
  match requireOriginalAccess s.tables q.revisionId q.actorId with
  | .ok _ => { s with phase := .granted source }
  | .error e => { s with phase := .raised e }

/-- An empty chunk is the end of the file. -/
def readChunk (source : OpenSource) (s : StreamState) : StreamState :=
  if source.chunk = [] then { s with phase := .returned }
  else { s with phase := .asking source.advance, received := s.received ++ [source.chunk] }

def step (s : StreamState) : StreamStep → StreamState
  | .openSource => q.openSource s
  | .requireAccess =>
    match s.phase with
    | .asking source => q.requireAccess source s
    | _ => s
  | .readChunk =>
    match s.phase with
    | .granted source => readChunk source s
    | _ => s
  | .disconnect => { s with phase := .closed }
  | .elsewhere tables blobs => { s with tables := tables, blobs := blobs }

/-- `FileSubmissionService.stream_original`, among everything else that goes on. -/
def machine : Machine StreamState StreamStep Unit where
  enabled := fun s i ↦ i.Enabled s
  step := fun s i ↦ ((), q.step s i)

/-- The response has been announced. -/
def announce (tables : FileTables) (blobs : BlobDirectory) : StreamState :=
  ⟨tables, blobs, .announced, []⟩

/-- What one step does. -/
inductive Move (s : StreamState) : StreamStep → StreamState → Prop
  | opened (bytes : List UInt8) (hphase : s.phase = .announced)
      (hread : s.blobs.read q.download.storageKey q.download.byteSize q.download.sha256
        = .ok bytes) :
      Move s .openSource { s with phase := .asking ⟨bytes, 0⟩ }
  | unreadable (e : Error) (hphase : s.phase = .announced)
      (hread : s.blobs.read q.download.storageKey q.download.byteSize q.download.sha256
        = .error e) :
      Move s .openSource { s with phase := .raised e }
  | granted (source : OpenSource) (hphase : s.phase = .asking source)
      (haccess : MayDownload s.tables q.revisionId q.actorId) :
      Move s .requireAccess { s with phase := .granted source }
  | refused (source : OpenSource) (e : Error) (hphase : s.phase = .asking source)
      (haccess : ¬MayDownload s.tables q.revisionId q.actorId) :
      Move s .requireAccess { s with phase := .raised e }
  | yielded (source : OpenSource) (hphase : s.phase = .granted source)
      (hchunk : source.chunk ≠ []) :
      Move s .readChunk
        { s with phase := .asking source.advance, received := s.received ++ [source.chunk] }
  | finished (source : OpenSource) (hphase : s.phase = .granted source)
      (hchunk : source.chunk = []) : Move s .readChunk { s with phase := .returned }
  | closed (hphase : s.phase = .announced ∨ ∃ source, s.phase = .asking source) :
      Move s .disconnect { s with phase := .closed }
  | elsewhere (tables : FileTables) (blobs : BlobDirectory) :
      Move s (.elsewhere tables blobs) { s with tables := tables, blobs := blobs }

variable {q} {s : StreamState} {i : StreamStep}

/-- **The spec of a step.** -/
theorem move_of_enabled (h : i.Enabled s) : q.Move s i (q.step s i) := by
  cases i with
  | openSource =>
    rw [step, openSource]
    split
    · next hread => exact .opened _ h hread
    · next hread => exact .unreadable _ h hread
  | requireAccess =>
    obtain ⟨source, hphase⟩ := h
    simp only [step, hphase, requireAccess, requireOriginalAccess]
    by_cases haccess : MayDownload s.tables q.revisionId q.actorId
    · rw [require_of haccess]
      exact .granted source hphase haccess
    · rw [require_of_not haccess]
      exact .refused source _ hphase haccess
  | readChunk =>
    obtain ⟨source, hphase⟩ := h
    simp only [step, hphase, readChunk]
    split
    · next hchunk => exact .finished source hphase hchunk
    · next hchunk => exact .yielded source hphase hchunk
  | disconnect => exact .closed (h.imp_right And.right)
  | elsewhere tables blobs => exact .elsewhere tables blobs

end StreamCall

/-! ## What has been received -/

/-- The bytes have the size and the hash of the row. -/
def OriginalDownload.Describes (d : OriginalDownload) (data : List UInt8) : Prop :=
  data.length = d.byteSize ∧ sha256Hex data = lit d.sha256

theorem BlobDirectory.describes_of_read {dir : BlobDirectory} {d : OriginalDownload}
    {bytes : List UInt8} (h : dir.read d.storageKey d.byteSize d.sha256 = .ok bytes) :
    d.Describes bytes := by
  obtain ⟨path, -, h⟩ := bind_eq_ok.mp h
  obtain ⟨metadata, -, h⟩ := bind_eq_ok.mp h
  cases metadata with
  | link | special => exact nomatch h
  | file metadata =>
    obtain ⟨opened, -, h⟩ := bind_eq_ok.mp h
    obtain ⟨hsize, h⟩ := require_bind_eq_ok.mp h
    obtain ⟨hhash, h⟩ := require_bind_eq_ok.mp h
    cases h
    exact ⟨not_not.mp (not_or.mp hsize).1, hhash⟩

/-- The first chunks of the data have been received, and the file stands behind them. -/
structure Cut (data : List UInt8) (received : List (List UInt8)) (position : ℕ) : Prop where
  chunks : received = firstChunks data received.length
  position : position = min (readChunkBytes * received.length) data.length
  /-- None of them is empty. -/
  inside : ∀ k < received.length, readChunkBytes * k < data.length

namespace Cut

variable {data : List UInt8} {received : List (List UInt8)} {position : ℕ}

theorem nil (data : List UInt8) : Cut data [] 0 :=
  ⟨rfl, by simp, fun _ h ↦ absurd h (Nat.not_lt_zero _)⟩

theorem flatten (h : Cut data received position) :
    received.flatten = data.take (readChunkBytes * received.length) := by
  conv_lhs => rw [h.chunks]
  exact flatten_firstChunks data received.length

theorem ne_nil (h : Cut data received position) {chunk : List UInt8} (hchunk : chunk ∈ received) :
    chunk ≠ [] := by
  rw [h.chunks] at hchunk
  obtain ⟨k, hk, rfl⟩ := List.mem_map.mp hchunk
  have hinside := h.inside k (List.mem_range.mp hk)
  intro hnil
  have hlength := length_chunkAt data k
  rw [hnil, List.length_nil, readChunkBytes] at hlength
  rw [readChunkBytes] at hinside
  omega

/-- A file that has more stands after a number of whole chunks. -/
theorem position_of_lt (h : Cut data received position) (hlt : position < data.length) :
    position = readChunkBytes * received.length := by
  have := h.position
  omega

theorem chunk_eq_nil {source : OpenSource} :
    source.chunk = [] ↔ source.bytes.length ≤ source.position := by
  rw [OpenSource.chunk, List.take_eq_nil_iff, List.drop_eq_nil_iff]
  simp [readChunkBytes]

theorem next {source : OpenSource} (h : Cut source.bytes received source.position)
    (hchunk : source.chunk ≠ []) :
    Cut source.bytes (received ++ [source.chunk]) source.advance.position := by
  have hlt : source.position < source.bytes.length := not_le.mp (mt chunk_eq_nil.mpr hchunk)
  -- before the end the file stands after whole chunks, so that the next one begins where it stands
  have hposition := h.position_of_lt hlt
  have heq : source.chunk = chunkAt source.bytes received.length := by
    rw [OpenSource.chunk, hposition, chunkAt]
  have hlength : (received ++ [source.chunk]).length = received.length + 1 := by simp
  refine ⟨?_, ?_, ?_⟩
  · rw [hlength, firstChunks_succ, ← h.chunks, heq]
  · have hchunkLength : source.chunk.length =
        min readChunkBytes (source.bytes.length - readChunkBytes * received.length) := by
      rw [heq, length_chunkAt]
    have hadvanced : source.advance.position = source.position + source.chunk.length := rfl
    rw [hlength, Nat.mul_succ]
    omega
  · intro k hk
    rw [hlength] at hk
    rcases Nat.lt_succ_iff_lt_or_eq.mp hk with hk | rfl
    · exact h.inside k hk
    · exact hposition ▸ hlt

/-- Nothing more to read: the chunks are the whole of the data. -/
theorem complete {source : OpenSource} (h : Cut source.bytes received source.position)
    (hchunk : source.chunk = []) : Cut source.bytes received source.bytes.length := by
  have hend := chunk_eq_nil.mp hchunk
  have hposition := h.position
  exact ⟨h.chunks, by omega, h.inside⟩

theorem whole (h : Cut data received data.length) : received.flatten = data := by
  rw [h.flatten, List.take_of_length_le]
  have := h.position
  omega

theorem length_eq (h : Cut data received data.length) :
    received.length = chunkCount data.length := by
  have hposition := h.position
  rw [chunkCount]
  rcases Nat.eq_zero_or_pos received.length with hzero | hpos
  · rw [readChunkBytes] at *
    omega
  -- the last chunk begins before the end, and the next one would not
  · have hinside := h.inside (received.length - 1) (by omega)
    rw [readChunkBytes] at *
    omega

theorem le_chunkCount (h : Cut data received position) :
    received.length ≤ chunkCount data.length := by
  rw [chunkCount]
  rcases Nat.eq_zero_or_pos received.length with hzero | hpos
  · rw [hzero]
    exact Nat.zero_le _
  · have hinside := h.inside (received.length - 1) (by omega)
    rw [readChunkBytes] at *
    omega

end Cut

theorem revision_of_download {t : FileTables} {revisionId actorId : UUID} {d : OriginalDownload}
    (h : downloadOriginal t revisionId actorId = .ok d) :
    ∃ r ∈ t.revisions, r.id = revisionId ∧ r.storageKey = some d.storageKey ∧
      d.byteSize = r.byteSize ∧ d.sha256 = r.sha256 := by
  rw [downloadOriginal] at h
  split at h
  · exact nomatch h
  · next r submission htarget =>
    obtain ⟨r', hfind, htarget⟩ := Option.bind_eq_some_iff.mp htarget
    obtain ⟨_, -, heq⟩ := Option.bind_eq_some_iff.mp htarget
    cases heq
    split at h
    · exact nomatch h
    · next key hkey =>
      cases h
      exact ⟨r, List.mem_of_find?_eq_some hfind, by simpa using List.find?_some hfind, hkey, rfl,
        rfl⟩

/-- What is received, wherever a stream stands. -/
def Streamed (d : OriginalDownload) (s : StreamState) : Prop :=
  match s.phase with
  | .announced => s.received = []
  | .asking source | .granted source =>
    d.Describes source.bytes ∧ Cut source.bytes s.received source.position
  | .returned => ∃ data, d.Describes data ∧ Cut data s.received data.length
  | .raised _ | .closed =>
    s.received = [] ∨ ∃ data position, d.Describes data ∧ Cut data s.received position

namespace Streamed

variable {d : OriginalDownload} {s : StreamState}

theorem cut (h : Streamed d s) :
    s.received = [] ∨ ∃ data position, d.Describes data ∧ Cut data s.received position := by
  rw [Streamed] at h
  split at h
  · exact Or.inl h
  · exact Or.inr ⟨_, _, h⟩
  · exact Or.inr ⟨_, _, h⟩
  · obtain ⟨data, hdata, hcut⟩ := h
    exact Or.inr ⟨data, _, hdata, hcut⟩
  · exact h
  · exact h

theorem of_returned (h : Streamed d s) (hreturned : s.phase = .returned) :
    d.Describes s.received.flatten := by
  rw [Streamed, hreturned] at h
  obtain ⟨data, hdata, hcut⟩ := h
  rwa [hcut.whole]

end Streamed

namespace StreamCall

variable {q : StreamCall} {s s' : StreamState} {i : StreamStep}

/-- **The step.** -/
theorem Move.streamed (h : q.Move s i s') (hs : Streamed q.download s) :
    Streamed q.download s' := by
  cases h with
  | opened bytes hphase hread =>
    rw [Streamed, hphase] at hs
    refine ⟨BlobDirectory.describes_of_read hread, ?_⟩
    dsimp only at hs ⊢
    rw [hs]
    exact Cut.nil bytes
  | unreadable e hphase =>
    rw [Streamed, hphase] at hs
    exact Or.inl hs
  | granted source hphase =>
    rw [Streamed, hphase] at hs
    exact hs
  | refused source e hphase =>
    rw [Streamed, hphase] at hs
    exact Or.inr ⟨_, _, hs⟩
  | yielded source hphase hchunk =>
    rw [Streamed, hphase] at hs
    exact ⟨hs.1, hs.2.next hchunk⟩
  | finished source hphase hchunk =>
    rw [Streamed, hphase] at hs
    exact ⟨_, hs.1, hs.2.complete hchunk⟩
  | closed hphase =>
    rcases hphase with hphase | ⟨source, hphase⟩
    · rw [Streamed, hphase] at hs
      exact Or.inl hs
    · rw [Streamed, hphase] at hs
      exact Or.inr ⟨_, _, hs⟩
  | elsewhere => exact hs

theorem streamed_of_run {is : List StreamStep} (h : q.machine.Legal s is)
    (hs : Streamed q.download s) : Streamed q.download (q.machine.exec s is) :=
  Machine.Along.invariant h hs fun _ _ hs hi ↦ (move_of_enabled hi).streamed hs

/-- The member may have the revision whenever the stream asks, its bytes are there to be opened, and
the client stays. -/
def Undisturbed (q : StreamCall) (data : List UInt8) (s : StreamState) : StreamStep → Prop
  | .openSource =>
    s.blobs.read q.download.storageKey q.download.byteSize q.download.sha256 = .ok data
  | .requireAccess => MayDownload s.tables q.revisionId q.actorId
  | .readChunk | .elsewhere _ _ => True
  | .disconnect => False

/-- A file of three bytes. -/
def notes : List UInt8 := [97, 98, 99]

def notesDigest : String := "ba7816bf8f01cfea414140de5dae2223b00361a396177a9cb410ff61f20015ad"

def notesTables : FileTables :=
  { emptyFileTables with
    roomMemberships := [⟨2, 3, false, false⟩]
    submissions := [⟨4, 5, 2, 3, "notes", false⟩]
    revisions := [⟨6, 4, "notes.txt", .text, 3, notesDigest, some "6.blob", .queued, none, true⟩] }

def notesBlobs : BlobDirectory :=
  plainDirectory (fun _ ↦ some (.file ⟨1, notes, true⟩)) fun _ heq ↦ nomatch heq

def notesCall : StreamCall := ⟨⟨"notes.txt", .text, 3, "6.blob", notesDigest⟩, 6, 3⟩

/-- The blob goes as soon as it is open. -/
def notesSteps : List StreamStep :=
  [.openSource, .elsewhere notesTables missing, .requireAccess, .readChunk, .requireAccess,
    .readChunk]

theorem read_notes : notesBlobs.read "6.blob" 3 notesDigest = .ok notes := by
  have hdigest : sha256Hex notes = lit notesDigest := by decide +kernel
  have hkey : ValidKey "6.blob" := by decide
  simp [BlobDirectory.read, BlobDirectory.pathFor, BlobDirectory.lstat, BlobDirectory.openFile,
    hkey, notesBlobs, plainDirectory, require, hdigest, show notes.length = 3 from rfl]

theorem notesSteps_undisturbed :
    notesCall.machine.Along (fun s i ↦ i.Enabled s ∧ Undisturbed notesCall notes s i)
      (announce notesTables notesBlobs) notesSteps := by
  have haccess : MayDownload notesTables 6 3 := by decide
  simp [notesSteps, Machine.Along, machine, step, announce, openSource, read_notes, notesCall,
    StreamStep.Enabled, Undisturbed, requireAccess, requireOriginalAccess, require, haccess,
    readChunk, OpenSource.chunk, OpenSource.advance, notes, readChunkBytes]

/-- **What a member receives.** Wherever a run of the stream stands, the chunks received are the
first ones of bytes with the size and the hash that the row of the revision had when the download
was asked for, and none is empty. They are all of it once the stream has returned, or once as many
bytes have come as the response announced. -/
theorem received_original {t t' : FileTables} {blobs : BlobDirectory} {is : List StreamStep}
    (hdownload : downloadOriginal t q.revisionId q.actorId = .ok q.download)
    (hlegal : q.machine.Legal (announce t' blobs) is) :
    let s := q.machine.exec (announce t' blobs) is
    ∃ r ∈ t.revisions, r.id = q.revisionId ∧ r.storageKey = some q.download.storageKey ∧
      (s.received = [] ∨ ∃ data, data.length = r.byteSize ∧ sha256Hex data = lit r.sha256 ∧
        s.received = firstChunks data s.received.length ∧ ∀ chunk ∈ s.received, chunk ≠ []) ∧
      (s.phase = .returned ∨ (s.received ≠ [] ∧ s.received.flatten.length = q.download.byteSize) →
        s.received.flatten.length = r.byteSize ∧ sha256Hex s.received.flatten = lit r.sha256) := by
  intro s
  obtain ⟨r, hr, hid, hkey, hsize, hhash⟩ := revision_of_download hdownload
  have hstreamed : Streamed q.download s := streamed_of_run hlegal rfl
  refine ⟨r, hr, hid, hkey, ?_, ?_⟩
  · rcases hstreamed.cut with hnil | ⟨data, position, hdata, hcut⟩
    · exact Or.inl hnil
    · exact Or.inr ⟨data, hdata.1.trans hsize, hdata.2.trans (congrArg lit hhash), hcut.chunks,
        fun chunk hchunk ↦ hcut.ne_nil hchunk⟩
  · intro hdone
    have hwhole : q.download.Describes s.received.flatten := by
      rcases hdone with hreturned | ⟨hsome, hlength⟩
      · exact hstreamed.of_returned hreturned
      · rcases hstreamed.cut with hnil | ⟨data, position, hdata, hcut⟩
        · exact absurd hnil hsome
        · -- a prefix that is as long as the data
          have hstart : s.received.flatten <+: data := hcut.flatten ▸ List.take_prefix _ _
          rw [hstart.eq_of_length (hlength.trans hdata.1.symm)]
          exact hdata
    exact ⟨hwhole.1.trans hsize, hwhole.2.trans (congrArg lit hhash)⟩

theorem received_original_notes :
    sha256Hex (notesCall.machine.exec (announce notesTables notesBlobs) notesSteps).received.flatten
      = lit notesDigest := by
  have hlegal : notesCall.machine.Legal (announce notesTables notesBlobs) notesSteps :=
    notesSteps_undisturbed.mono fun _ _ h ↦ h.1
  obtain ⟨r, hr, -, -, -, hdone⟩ := received_original (t := notesTables) rfl hlegal
  cases List.mem_singleton.mp hr
  refine (hdone (Or.inl ?_)).2
  have haccess : MayDownload notesTables 6 3 := by decide
  simp [notesSteps, machine, step, announce, openSource, read_notes, notesCall, requireAccess,
    requireOriginalAccess, require, haccess, readChunk, OpenSource.chunk, OpenSource.advance, notes,
    readChunkBytes]

/-! ## Losing the revision -/

/-- A chunk may be on its way: access was granted for it. -/
def inFlight (s : StreamState) : ℕ :=
  match s.phase with
  | .granted _ => 1
  | _ => 0

/-- The steps that a stream without access takes at the most. -/
def stepsLeft (s : StreamState) : ℕ :=
  match s.phase with
  | .announced | .granted _ => 2
  | .asking _ => 1
  | .returned | .raised _ | .closed => 0

/-- Since `s`, `m` steps of the stream have been taken without access. -/
structure Since (s : StreamState) (m : ℕ) (s' : StreamState) : Prop where
  received : ∃ chunks, s'.received = s.received ++ chunks ∧
    chunks.length + inFlight s' ≤ inFlight s ∧ ∀ chunk ∈ chunks, chunk.length ≤ readChunkBytes
  steps : m + stepsLeft s' ≤ stepsLeft s

theorem Since.refl (s : StreamState) : Since s 0 s :=
  ⟨⟨[], by simp⟩, by simp⟩

/-- A step that yields nothing. -/
theorem Since.silent {s s' s'' : StreamState} {m k : ℕ} (h : Since s m s')
    (hreceived : s''.received = s'.received) (hflight : inFlight s'' ≤ inFlight s')
    (hsteps : k + stepsLeft s'' ≤ stepsLeft s') : Since s (m + k) s'' := by
  obtain ⟨chunks, heq, hlength, hshort⟩ := h.received
  have hbefore := h.steps
  exact ⟨⟨chunks, hreceived.trans heq, by omega, hshort⟩, by omega⟩

/-- **The step**, without access. -/
theorem Move.since {s₀ : StreamState} {m : ℕ} (h : q.Move s i s')
    (hrevoked : ¬MayDownload s.tables q.revisionId q.actorId) (hs : Since s₀ m s) :
    Since s₀ (m + (if i.own then 1 else 0)) s' := by
  cases h with
  | opened bytes hphase | unreadable e hphase | refused source e hphase | finished source hphase =>
    refine hs.silent rfl ?_ ?_ <;> simp [inFlight, stepsLeft, hphase, StreamStep.own]
  | granted source hphase haccess => exact absurd haccess hrevoked
  | yielded source hphase hchunk =>
    obtain ⟨chunks, heq, hlength, hshort⟩ := hs.received
    have hbefore := hs.steps
    -- the one chunk that access was granted for before
    have hflight : inFlight s = 1 := by rw [inFlight, hphase]
    have hleft : stepsLeft s = 2 := by rw [stepsLeft, hphase]
    refine ⟨⟨chunks ++ [source.chunk], ?_, ?_, ?_⟩, ?_⟩
    · rw [heq, List.append_assoc]
    · change (chunks ++ [source.chunk]).length + 0 ≤ inFlight s₀
      rw [List.length_append, List.length_singleton]
      omega
    · intro chunk hchunk
      rcases List.mem_append.mp hchunk with hchunk | hchunk
      · exact hshort chunk hchunk
      · rw [List.mem_singleton.mp hchunk, OpenSource.chunk]
        exact List.length_take_le _ _
    · change m + 1 + 1 ≤ stepsLeft s₀
      omega
  | closed hphase => exact hs.silent rfl (by simp [inFlight]) (by simp [stepsLeft, StreamStep.own])
  | elsewhere tables blobs => exact hs.silent rfl le_rfl (by simp [stepsLeft, StreamStep.own])

/-- **Losing the revision.** However far a stream has come and whatever else goes on, as long as the
member may not have the revision it yields at most the one chunk that access was granted for before,
of 64 KiB at the most, and ends after two more steps. -/
theorem revoked_received {is : List StreamStep}
    (h : q.machine.Along
      (fun s i ↦ i.Enabled s ∧ ¬MayDownload s.tables q.revisionId q.actorId) s is) :
    (∃ chunks, (q.machine.exec s is).received = s.received ++ chunks ∧ chunks.length ≤ inFlight s ∧
      ∀ chunk ∈ chunks, chunk.length ≤ readChunkBytes) ∧
    is.countP StreamStep.own ≤ 2 := by
  have hsince := h.counted (Since.refl s) fun m s' i hs' hi ↦
    (move_of_enabled hi.1).since hi.2 hs'
  obtain ⟨chunks, heq, hlength, hshort⟩ := hsince.received
  refine ⟨⟨chunks, heq, by omega, hshort⟩, ?_⟩
  have hsteps := hsince.steps
  have hleft : stepsLeft s ≤ 2 := by
    rw [stepsLeft]
    split <;> omega
  omega

/-- Access was granted, and then the room was left. -/
def leftRoom : StreamState := ⟨emptyFileTables, missing, .granted ⟨notes, 0⟩, []⟩

theorem revoked_received_leftRoom :
    (notesCall.machine.exec leftRoom [.readChunk, .requireAccess]).received.length ≤ 1 := by
  have hlost : ¬MayDownload emptyFileTables 6 3 := by decide
  have hrun : notesCall.machine.Along
      (fun s i ↦ i.Enabled s ∧ ¬MayDownload s.tables notesCall.revisionId notesCall.actorId)
      leftRoom [.readChunk, .requireAccess] := by
    simp [Machine.Along, machine, step, leftRoom, StreamStep.Enabled, readChunk, OpenSource.chunk,
      notes, readChunkBytes, notesCall, hlost]
  obtain ⟨⟨chunks, heq, hlength, -⟩, -⟩ := revoked_received hrun
  rw [heq]
  exact hlength

/-! ## A download that nothing disturbs -/

/-- Where a stream stands after `m` steps of its own. -/
def Stands (data : List UInt8) (m : ℕ) (s : StreamState) : Prop :=
  match s.phase with
  | .announced => m = 0 ∧ s.received = []
  | .asking source =>
    source.bytes = data ∧ Cut data s.received source.position ∧ m = 2 * s.received.length + 1
  | .granted source =>
    source.bytes = data ∧ Cut data s.received source.position ∧ m = 2 * s.received.length + 2
  | .returned => Cut data s.received data.length ∧ m = 2 * s.received.length + 3
  | .raised _ | .closed => False

theorem Move.stands {data : List UInt8} {m : ℕ} (h : q.Move s i s') (hi : Undisturbed q data s i)
    (hs : Stands data m s) : Stands data (m + (if i.own then 1 else 0)) s' := by
  cases h with
  | opened bytes hphase hread =>
    rw [Stands, hphase] at hs
    cases hread.symm.trans hi
    obtain ⟨rfl, hnil⟩ := hs
    rw [Stands]
    dsimp only
    rw [hnil]
    exact ⟨rfl, Cut.nil _, rfl⟩
  | unreadable e hphase hread => exact nomatch hread.symm.trans hi
  | granted source hphase =>
    rw [Stands, hphase] at hs
    exact ⟨hs.1, hs.2.1, congrArg (· + 1) hs.2.2⟩
  | refused source e hphase haccess => exact absurd hi haccess
  | yielded source hphase hchunk =>
    rw [Stands, hphase] at hs
    obtain ⟨rfl, hcut, rfl⟩ := hs
    refine ⟨rfl, hcut.next hchunk, ?_⟩
    simp [StreamStep.own]
    omega
  | finished source hphase hchunk =>
    rw [Stands, hphase] at hs
    obtain ⟨rfl, hcut, rfl⟩ := hs
    exact ⟨hcut.complete hchunk, rfl⟩
  | closed => exact hi.elim
  | elsewhere tables blobs => exact hs

/-- The steps of a whole download: to open the file, to ask and to read for each chunk, and to ask
and to read once more at its end. -/
def wholeDownload (size : ℕ) : ℕ := 2 * chunkCount size + 3

/-- **A download that nothing disturbs** depends on nothing but the number of its own steps, in
whatever order they and those of others come. It has received all up to where it stands, never stops
before its end, and returns with the last of the steps it needs. -/
theorem received_of_steps {t : FileTables} {blobs : BlobDirectory} {data : List UInt8}
    {is : List StreamStep}
    (h : q.machine.Along (fun s i ↦ i.Enabled s ∧ Undisturbed q data s i) (announce t blobs) is) :
    let s := q.machine.exec (announce t blobs) is
    let m := is.countP StreamStep.own
    s.received.flatten = data.take (readChunkBytes * ((m - 1) / 2)) ∧
      m ≤ wholeDownload data.length ∧ (s.phase = .returned ↔ m = wholeDownload data.length) ∧
      (m < wholeDownload data.length → ∃ i : StreamStep, i.own ∧ i.Enabled s) := by
  intro s m
  have hstands : Stands data m s :=
    h.counted (show Stands data 0 (announce t blobs) from ⟨rfl, rfl⟩) fun m s i hs hi ↦
      (move_of_enabled hi.1).stands hi.2 hs
  rw [wholeDownload]
  clear_value s m
  rw [Stands] at hstands
  split at hstands
  · next hphase =>
    obtain ⟨rfl, hnil⟩ := hstands
    refine ⟨by simp [hnil], by omega, ?_, fun _ ↦ ⟨.openSource, rfl, hphase⟩⟩
    simp [hphase]
  · next source hphase =>
    obtain ⟨rfl, hcut, rfl⟩ := hstands
    have hle := hcut.le_chunkCount
    refine ⟨?_, by omega, ?_, fun _ ↦ ⟨.requireAccess, rfl, source, hphase⟩⟩
    · rw [hcut.flatten]
      congr 2
      omega
    · simp [hphase]
      omega
  · next source hphase =>
    obtain ⟨rfl, hcut, rfl⟩ := hstands
    have hle := hcut.le_chunkCount
    refine ⟨?_, by omega, ?_, fun _ ↦ ⟨.readChunk, rfl, source, hphase⟩⟩
    · rw [hcut.flatten]
      congr 2
      omega
    · simp [hphase]
      omega
  · next hphase =>
    obtain ⟨hcut, rfl⟩ := hstands
    have hlength := hcut.length_eq
    have hposition := hcut.position
    refine ⟨?_, by omega, ?_, fun hlt ↦ absurd hlt (by omega)⟩
    · rw [hcut.whole, List.take_of_length_le]
      have hmore : readChunkBytes * s.received.length ≤
          readChunkBytes * ((2 * s.received.length + 3 - 1) / 2) := Nat.mul_le_mul_left _ (by omega)
      omega
    · simp [hphase, hlength]
  · exact hstands.elim
  · exact hstands.elim

theorem received_of_steps_notes :
    (notesCall.machine.exec (announce notesTables notesBlobs) notesSteps).received.flatten
      = notes :=
  (received_of_steps notesSteps_undisturbed).1

end StreamCall

end MeetingRag
