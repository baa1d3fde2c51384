import Mathlib.Data.List.AList
import Mathlib.Data.Rat.Defs
import Mathlib.Algebra.Order.Ring.Rat
import MeetingRag.Library.Machine
import MeetingRag.Library.Text

/-!
# The blob store at work

An upload writes its bytes to a staging file, renames the file to the key of a new revision inside its
transaction, and commits the row that holds the key. A sweep reads the keys that are committed once and
then walks over the directory, and deletes the old files whose names are not among them. Any number of
both go on at the same time, one step after another.

Whatever step is taken is a `Move`: one upload goes on, under names of its own or new ones, or an upload
ends, or a file goes. No move brings the names of the store into disorder (`Move.ordered`).
-/

open Text

namespace MeetingRag

/-! ## Finite maps -/

section Maps

variable {κ ν : Type*} [DecidableEq κ]

theorem lookup_insert_eq_some {m : AList fun _ : κ ↦ ν} {a c : κ} {b v : ν} :
    (m.insert a b).lookup c = some v ↔ (c = a ∧ b = v) ∨ (c ≠ a ∧ m.lookup c = some v) := by
  by_cases h : c = a
  · subst h
    simp
  · rw [AList.lookup_insert_ne h]
    simp [h]

theorem lookup_erase_eq_some {m : AList fun _ : κ ↦ ν} {a c : κ} {v : ν} :
    (m.erase a).lookup c = some v ↔ c ≠ a ∧ m.lookup c = some v := by
  by_cases h : c = a
  · subst h
    simp
  · rw [AList.lookup_erase_ne h]
    simp [h]

end Maps

/-! ## Names -/

/-- `uuid.hex` -/
def hex (uuid : UUID) : String := String.ofList (hexDigits 32 uuid.toNat)

def stagingName (uuid : UUID) : String := ".upload-" ++ hex uuid ++ ".tmp"

def blobName (revisionId : UUID) : String := hex revisionId ++ ".blob"

/-- A staging name or the name of a blob. -/
def HasSweptName (name : String) : Prop :=
  (".upload-".toList.isPrefixOf name.toList ∧ ".tmp".toList.isSuffixOf name.toList) ∨
    ".blob".toList.isSuffixOf name.toList

instance : DecidablePred HasSweptName := fun name ↦ by
  unfold HasSweptName
  infer_instance

/-! ## The store and those at work on it -/

/-- A child of the root, as `lstat` finds it. -/
inductive RootEntry
  | file (mtime : ℚ)
  | link
  /-- A directory, a device, a pipe or a socket. -/
  | special
deriving DecidableEq

/-- How far a call of `submit` has come. -/
inductive UploadPhase
  /-- `temporary_path` has named the staging file. -/
  | named
  /-- The staging file is open. -/
  | writing
  /-- Size and hash of the staging file are known. -/
  | staged
  /-- `os.replace` has given the file its key. -/
  | renamed (key : String)
  /-- `commit` of the store has returned the key. -/
  | keyed (key : String)
  /-- The rows are written, and the transaction is open. -/
  | inserted (key : String)
deriving DecidableEq

/-- A call of `submit` in progress. -/
structure Upload where
  temporary : String
  /-- The latest write to the file. -/
  lastWrite : ℚ
  phase : UploadPhase
deriving DecidableEq

namespace Upload

def key? (u : Upload) : Option String :=
  match u.phase with
  | .named | .writing | .staged => none
  | .renamed key | .keyed key | .inserted key => some key

/-- The name the file of the upload has now. -/
def file? (u : Upload) : Option String :=
  match u.phase with
  | .named => none
  | .writing | .staged => some u.temporary
  | .renamed key | .keyed key | .inserted key => some key

/-- `committed_key or temporary` -/
def cleanup (u : Upload) : String :=
  match u.phase with
  | .named | .writing | .staged | .renamed _ => u.temporary
  | .keyed key | .inserted key => key

/-- The names the upload has been given. -/
def names (u : Upload) : List String := u.temporary :: u.key?.toList

theorem file_of_key {u : Upload} {key : String} (h : u.key? = some key) : u.file? = some key := by
  obtain ⟨temporary, lastWrite, phase⟩ := u
  cases phase with
  | named | writing | staged => exact nomatch h
  | renamed | keyed | inserted => exact h

theorem mem_names_of_file {u : Upload} {name : String} (h : u.file? = some name) : name ∈ u.names := by
  obtain ⟨temporary, lastWrite, phase⟩ := u
  cases phase with
  | named => exact nomatch h
  | writing | staged => exact Option.some.inj h ▸ List.mem_cons_self
  | renamed | keyed | inserted =>
    cases h
    exact List.mem_cons_of_mem _ List.mem_cons_self

/-- A name of an upload is that of its file, or it is the staging name and the file is elsewhere. -/
theorem file_or_temporary {u : Upload} {name : String} (h : name ∈ u.names) :
    u.file? = some name ∨ (name = u.temporary ∧ u.file? ≠ some u.temporary) := by
  rcases List.mem_cons.mp h with rfl | hkey
  · by_cases hfile : u.file? = some u.temporary
    · exact Or.inl hfile
    · exact Or.inr ⟨rfl, hfile⟩
  · exact Or.inl (file_of_key (Option.mem_toList.mp hkey))

end Upload

/-- A call of `sweep_orphans` in progress. -/
structure Sweep where
  cutoff : ℚ
  /-- The keys it has read, or `none` before. -/
  referenced : Option (List String)
  /-- A name that is about to be unlinked. -/
  picked : Option String
  removed : ℕ
deriving DecidableEq

structure BlobStore where
  now : ℚ
  root : AList fun _ : String ↦ RootEntry
  /-- The storage keys of the committed revisions. -/
  committed : List String
  /-- The names that were there or were given out. -/
  used : List String
  uploads : AList fun _ : ℕ ↦ Upload
  sweeps : AList fun _ : ℕ ↦ Sweep

/-- A step of a call, which has a number. -/
inductive BlobAction
  | stage (id : ℕ) (uuid : UUID)
  | openFile (id : ℕ)
  | write (id : ℕ)
  | close (id : ℕ)
  | rename (id : ℕ) (revisionId : UUID)
  | sync (id : ℕ)
  | insert (id : ℕ)
  | commit (id : ℕ)
  /-- An exception, and the deletion that answers it. -/
  | fail (id : ℕ)
  /-- The end of the process. -/
  | crash (id : ℕ)
  | beginSweep (id : ℕ) (minimumAgeSeconds : ℤ) (now : Option ℚ)
  | selectKeys (id : ℕ)
  | examine (id : ℕ) (name : String)
  | unlink (id : ℕ)
  | endSweep (id : ℕ)
deriving DecidableEq

structure BlobInput where
  time : ℚ
  action : BlobAction
deriving DecidableEq

namespace BlobStore

/-- `path.unlink()`, which leaves what is not a file or a link. -/
def unlinked (root : AList fun _ : String ↦ RootEntry) (name : String) :
    AList fun _ : String ↦ RootEntry :=
  match root.lookup name with
  | some (.file _) | some .link => root.erase name
  | some .special | none => root

/-- A write through the open file, which reaches the root if the file still has its name. -/
def touched (root : AList fun _ : String ↦ RootEntry) (name : String) (time : ℚ) :
    AList fun _ : String ↦ RootEntry :=
  match root.lookup name with
  | some (.file _) => root.insert name (.file time)
  | some .link | some .special | none => root

variable (s : BlobStore) (time : ℚ)

def setUpload (id : ℕ) (u : Upload) : BlobStore := { s with uploads := s.uploads.insert id u }

def setSweep (id : ℕ) (w : Sweep) : BlobStore := { s with sweeps := s.sweeps.insert id w }

/-- A step of an upload. A step that does not fit what the upload has done is none. -/
def stepUpload (id : ℕ) (u : Upload) : BlobAction → BlobStore
  | .openFile _ =>
    if u.phase = .named ∧ s.root.lookup u.temporary = none then
      { s with root := s.root.insert u.temporary (.file time) }.setUpload id
        { u with phase := .writing, lastWrite := time }
    else s
  | .write _ =>
    if u.phase = .writing then
      { s with root := touched s.root u.temporary time }.setUpload id { u with lastWrite := time }
    else s
  | .close _ => if u.phase = .writing then s.setUpload id { u with phase := .staged } else s
  | .rename _ revisionId =>
    match u.phase, s.root.lookup u.temporary with
    | .staged, some entry =>
      { s with
        root := (s.root.erase u.temporary).insert (blobName revisionId) entry
        used := blobName revisionId :: s.used }.setUpload id
        { u with phase := .renamed (blobName revisionId) }
    | _, _ => s
  | .sync _ =>
    match u.phase with
    | .renamed key => s.setUpload id { u with phase := .keyed key }
    | _ => s
  | .insert _ =>
    match u.phase with
    | .keyed key => s.setUpload id { u with phase := .inserted key }
    | _ => s
  | .commit _ =>
    match u.phase with
    | .inserted key => { s with committed := key :: s.committed, uploads := s.uploads.erase id }
    | _ => s
  | .fail _ => { s with root := unlinked s.root u.cleanup, uploads := s.uploads.erase id }
  | .crash _ => { s with uploads := s.uploads.erase id }
  | _ => s

/-- A step of a sweep, with the name it removes. -/
def stepSweep (id : ℕ) (w : Sweep) : BlobAction → Option String × BlobStore
  | .selectKeys _ =>
    match w.referenced with
    | none => (none, s.setSweep id { w with referenced := some s.committed })
    | some _ => (none, s)
  | .examine _ name =>
    match w.referenced, w.picked, s.root.lookup name with
    | some referenced, none, some (.file mtime) =>
      if HasSweptName name ∧ ¬w.cutoff < mtime ∧ name ∉ referenced then
        (none, s.setSweep id { w with picked := some name })
      else (none, s)
    | _, _, _ => (none, s)
  | .unlink _ =>
    match w.picked with
    | none => (none, s)
    | some name =>
      match s.root.lookup name with
      | some (.file _) | some .link =>
        (some name, { s with root := s.root.erase name }.setSweep id
          { w with picked := none, removed := w.removed + 1 })
      | some .special | none => (none, s.setSweep id { w with picked := none })
  | .endSweep _ => (none, { s with sweeps := s.sweeps.erase id })
  | _ => (none, s)

/-- A step of the store at a time. The names of the directory come to a sweep in any order, and each
as often as may be. -/
def step (action : BlobAction) : Option String × BlobStore :=
  match action with
  | .stage id uuid =>
    (none, { s with used := stagingName uuid :: s.used }.setUpload id ⟨stagingName uuid, time, .named⟩)
  | .beginSweep id minimumAgeSeconds now =>
    if 24 * 60 * 60 ≤ minimumAgeSeconds then
      (none, s.setSweep id ⟨now.getD time - minimumAgeSeconds, none, none, 0⟩)
    else (none, s)
  | .openFile id | .write id | .close id | .rename id _ | .sync id | .insert id | .commit id | .fail id
  | .crash id =>
    match s.uploads.lookup id with
    | some u => (none, s.stepUpload time id u action)
    | none => (none, s)
  | .selectKeys id | .examine id _ | .unlink id | .endSweep id =>
    match s.sweeps.lookup id with
    | some w => s.stepSweep id w action
    | none => (none, s)

/-- Time does not run back, a call begins under a new number, and `uuid4` gives names that were never
used. -/
def Admits : BlobAction → Prop
  | .stage id uuid => s.uploads.lookup id = none ∧ stagingName uuid ∉ s.used
  | .rename _ revisionId => blobName revisionId ∉ s.used
  | .beginSweep id _ _ => s.sweeps.lookup id = none
  | _ => True

instance : DecidablePred s.Admits := fun action ↦ by
  unfold Admits
  split <;> infer_instance

end BlobStore

/-- The blob store under its uploads and sweeps. -/
def blobMachine : Machine BlobStore BlobInput (Option String) where
  enabled s i := s.now ≤ i.time ∧ s.Admits i.action
  step s i := { s with now := i.time }.step i.time i.action

instance (s : BlobStore) (i : BlobInput) : Decidable (blobMachine.enabled s i) :=
  inferInstanceAs (Decidable (s.now ≤ i.time ∧ s.Admits i.action))

/-- Nothing is in progress, and every name that is there is known. -/
structure BlobStore.Quiet (s : BlobStore) : Prop where
  uploads : s.uploads = ∅
  sweeps : s.sweeps = ∅
  root : ∀ name, (s.root.lookup name).isSome = true → name ∈ s.used
  committed : s.committed ⊆ s.used

/-! ## What a step does -/

namespace BlobStore

/-- No upload in progress has been given the name. -/
def Free (s : BlobStore) (name : String) : Prop :=
  ∀ id u, s.uploads.lookup id = some u → name ∉ u.names

/-- The name is spent: nothing that is or will be live has it. -/
structure Dead (s : BlobStore) (name : String) : Prop where
  used : name ∈ s.used
  not_committed : name ∉ s.committed
  free : s.Free name

/-- The store keeps its names apart, and a file has the time of the latest write to it. -/
structure Ordered (s : BlobStore) : Prop where
  known : ∀ name, (s.root.lookup name).isSome = true → name ∈ s.used
  committed : s.committed ⊆ s.used
  issued : ∀ id u, s.uploads.lookup id = some u → ∀ name ∈ u.names, name ∈ s.used ∧ name ∉ s.committed
  apart : ∀ id id' u v, s.uploads.lookup id = some u → s.uploads.lookup id' = some v → id ≠ id' →
    ∀ name ∈ u.names, name ∉ v.names
  dated : ∀ id u name entry, s.uploads.lookup id = some u → u.file? = some name →
    s.root.lookup name = some entry → entry = .file u.lastWrite
  vacant : ∀ id u, s.uploads.lookup id = some u → u.file? ≠ some u.temporary →
    s.root.lookup u.temporary = none

/-- What a step may do to the directory and the uploads: one upload goes on, under names of its own or
new ones, or an upload ends, or a file goes. -/
inductive Move (s s' : BlobStore) : Prop
  | advance (id : ℕ) (u : Upload) (uploads : s'.uploads = s.uploads.insert id u)
      (committed : s'.committed = s.committed) (used : s.used ⊆ s'.used)
      (names : ∀ name ∈ u.names, name ∈ s'.used ∧
        (name ∉ s.used ∨ ∃ v, s.uploads.lookup id = some v ∧ name ∈ v.names))
      (root : ∀ name, name ∉ u.names → s'.root.lookup name = s.root.lookup name)
      (dated : ∀ name entry, u.file? = some name → s'.root.lookup name = some entry →
        entry = .file u.lastWrite)
      (vacant : u.file? ≠ some u.temporary → s'.root.lookup u.temporary = none)
  | shrink (uploads : ∀ id u, s'.uploads.lookup id = some u → s.uploads.lookup id = some u)
      (committed : ∀ key ∈ s'.committed, key ∈ s.committed ∨
        ∃ id u, s.uploads.lookup id = some u ∧ s'.uploads.lookup id = none ∧ u.file? = some key ∧
          key ∈ u.names)
      (used : s'.used = s.used)
      (root : ∀ name, s'.root.lookup name = s.root.lookup name ∨ s'.root.lookup name = none)

theorem Ordered.not_mem_names {s : BlobStore} (h : s.Ordered) {key : String} (hkey : key ∈ s.committed) :
    s.Free key := fun id u hu hname ↦ (h.issued id u hu key hname).2 hkey

/-- **A step keeps the store in order.** -/
theorem Move.ordered {s s' : BlobStore} (hmove : Move s s') (h : s.Ordered) : s'.Ordered := by
  cases hmove with
  | advance id u huploads hcommitted hused hnames hroot hdated hvacant =>
    have hfresh : ∀ id' v, id' ≠ id → s.uploads.lookup id' = some v → ∀ name ∈ u.names, name ∉ v.names := by
      intro id' v hne hv name hname hmem
      rcases (hnames name hname).2 with hnew | ⟨w, hw, hold⟩
      · exact hnew (h.issued id' v hv name hmem).1
      · exact h.apart id id' w v hw hv hne.symm name hold hmem
    have hlookup : ∀ id' v, s'.uploads.lookup id' = some v →
        (id' = id ∧ u = v) ∨ (id' ≠ id ∧ s.uploads.lookup id' = some v) := by
      intro id' v hv
      rw [huploads] at hv
      exact lookup_insert_eq_some.mp hv
    refine ⟨fun name hname ↦ ?_, hcommitted ▸ List.Subset.trans h.committed hused, ?_, ?_, ?_, ?_⟩
    · by_cases hmem : name ∈ u.names
      · exact (hnames name hmem).1
      · rw [hroot name hmem] at hname
        exact hused (h.known name hname)
    · intro id' v hv name hname
      rw [hcommitted]
      rcases hlookup id' v hv with ⟨-, rfl⟩ | ⟨-, hv⟩
      · refine ⟨(hnames name hname).1, fun hkey ↦ ?_⟩
        rcases (hnames name hname).2 with hnew | ⟨w, hw, hold⟩
        · exact hnew (h.committed hkey)
        · exact (h.issued id w hw name hold).2 hkey
      · exact (h.issued id' v hv name hname).imp_left (hused ·)
    · intro i j v w hv hw hne name hname hmem
      rcases hlookup i v hv with ⟨rfl, rfl⟩ | ⟨hi, hv⟩
      · rcases hlookup j w hw with ⟨rfl, rfl⟩ | ⟨hj, hw⟩
        · exact hne rfl
        · exact hfresh j w hj hw name hname hmem
      · rcases hlookup j w hw with ⟨rfl, rfl⟩ | ⟨hj, hw⟩
        · exact hfresh i v hi hv name hmem hname
        · exact h.apart i j v w hv hw hne name hname hmem
    · intro id' v name entry hv hfile hentry
      rcases hlookup id' v hv with ⟨-, rfl⟩ | ⟨hne, hv⟩
      · exact hdated name entry hfile hentry
      · have hother : name ∉ u.names := fun hmem ↦
          hfresh id' v hne hv name hmem (Upload.mem_names_of_file hfile)
        rw [hroot name hother] at hentry
        exact h.dated id' v name entry hv hfile hentry
    · intro id' v hv hfile
      rcases hlookup id' v hv with ⟨-, rfl⟩ | ⟨hne, hv⟩
      · exact hvacant hfile
      · have hother : v.temporary ∉ u.names :=
          fun hmem ↦ hfresh id' v hne hv v.temporary hmem List.mem_cons_self
        rw [hroot _ hother]
        exact h.vacant id' v hv hfile
  | shrink huploads hcommitted hused hroot =>
    refine ⟨fun name hname ↦ ?_, fun key hkey ↦ ?_, ?_, ?_, ?_, ?_⟩
    · rcases hroot name with heq | hnone
      · rw [heq] at hname
        exact hused ▸ h.known name hname
      · rw [hnone] at hname
        exact nomatch hname
    · rw [hused]
      rcases hcommitted key hkey with hold | ⟨id, u, hu, -, -, hname⟩
      · exact h.committed hold
      · exact (h.issued id u hu key hname).1
    · intro id u hu name hname
      rw [hused]
      refine ⟨(h.issued id u (huploads id u hu) name hname).1, fun hkey ↦ ?_⟩
      rcases hcommitted name hkey with hold | ⟨id', v, hv, hended, -, hmem⟩
      · exact (h.issued id u (huploads id u hu) name hname).2 hold
      · have hne : id ≠ id' := by
          rintro rfl
          rw [hended] at hu
          exact nomatch hu
        exact h.apart id id' u v (huploads id u hu) hv hne name hname hmem
    · exact fun i j u v hu hv ↦ h.apart i j u v (huploads i u hu) (huploads j v hv)
    · intro id u name entry hu hfile hentry
      rcases hroot name with heq | hnone
      · exact h.dated id u name entry (huploads id u hu) hfile (heq ▸ hentry)
      · rw [hnone] at hentry
        exact nomatch hentry
    · intro id u hu hfile
      rcases hroot u.temporary with heq | hnone
      · rw [heq]
        exact h.vacant id u (huploads id u hu) hfile
      · exact hnone

theorem unlinked_lookup (root : AList fun _ : String ↦ RootEntry) (path name : String) :
    (unlinked root path).lookup name = root.lookup name ∨ (unlinked root path).lookup name = none := by
  have herase : (root.erase path).lookup name = root.lookup name ∨
      (root.erase path).lookup name = none := by
    by_cases heq : name = path
    · exact Or.inr (heq ▸ AList.lookup_erase path root)
    · exact Or.inl (AList.lookup_erase_ne heq)
  rw [unlinked]
  split
  · exact herase
  · exact herase
  · exact Or.inl rfl
  · exact Or.inl rfl

theorem touched_of_ne {root : AList fun _ : String ↦ RootEntry} {path name : String} (h : name ≠ path)
    (time : ℚ) : (touched root path time).lookup name = root.lookup name := by
  rw [touched]
  split
  · exact AList.lookup_insert_ne h
  · rfl
  · rfl
  · rfl

theorem touched_self {root : AList fun _ : String ↦ RootEntry} {path : String} {time : ℚ}
    (h : ∀ entry, root.lookup path = some entry → ∃ mtime, entry = .file mtime) {entry : RootEntry}
    (hentry : (touched root path time).lookup path = some entry) : entry = .file time := by
  rw [touched] at hentry
  split at hentry
  · rw [AList.lookup_insert] at hentry
    exact (Option.some.inj hentry).symm
  · next hlink =>
    obtain ⟨mtime, heq⟩ := h .link hlink
    exact nomatch heq
  · next hspecial =>
    obtain ⟨mtime, heq⟩ := h .special hspecial
    exact nomatch heq
  · next hnone =>
    rw [hnone] at hentry
    exact nomatch hentry

section Steps

variable {s : BlobStore} {id : ℕ} {u : Upload}

theorem Move.refl (s : BlobStore) : Move s s :=
  .shrink (fun _ _ h ↦ h) (fun _ h ↦ Or.inl h) rfl fun _ ↦ Or.inl rfl

/-- The end of an upload without a commit. -/
theorem Move.ended {root : AList fun _ : String ↦ RootEntry}
    (hroot : ∀ name, root.lookup name = s.root.lookup name ∨ root.lookup name = none) :
    Move s { s with root := root, uploads := s.uploads.erase id } :=
  .shrink (fun _ _ h ↦ (lookup_erase_eq_some.mp h).2) (fun _ h ↦ Or.inl h) rfl hroot

/-- An upload that goes on under its names, and nothing is written. -/
theorem Move.phase (h : s.Ordered) (hu : s.uploads.lookup id = some u) {u' : Upload}
    (hnames : u'.names = u.names) (hfile : u'.file? = u.file?) (hlast : u'.lastWrite = u.lastWrite) :
    Move s (s.setUpload id u') := by
  have htemporary : u'.temporary = u.temporary := (List.cons.inj hnames).1
  refine .advance id u' rfl rfl (List.Subset.refl _) (fun name hname ↦ ?_) (fun _ _ ↦ rfl) ?_ ?_
  · rw [hnames] at hname
    exact ⟨(h.issued id u hu name hname).1, Or.inr ⟨u, hu, hname⟩⟩
  · intro name entry hname hentry
    rw [hlast]
    exact h.dated id u name entry hu (hfile ▸ hname) hentry
  · rw [hfile, htemporary]
    exact h.vacant id u hu

/-- An upload that writes to its staging file. -/
theorem Move.written (h : s.Ordered) (hu : s.uploads.lookup id = some u) {u' : Upload}
    (hnames : u'.names = u.names) (hfile : u'.file? = some u.temporary)
    {root : AList fun _ : String ↦ RootEntry}
    (hroot : ∀ name, name ≠ u.temporary → root.lookup name = s.root.lookup name)
    (hself : ∀ entry, root.lookup u.temporary = some entry → entry = .file u'.lastWrite) :
    Move s ({ s with root := root }.setUpload id u') := by
  have htemporary : u'.temporary = u.temporary := (List.cons.inj hnames).1
  refine .advance id u' rfl rfl (List.Subset.refl _) (fun name hname ↦ ?_) (fun name hname ↦ ?_) ?_ ?_
  · rw [hnames] at hname
    exact ⟨(h.issued id u hu name hname).1, Or.inr ⟨u, hu, hname⟩⟩
  · refine hroot name fun heq ↦ hname ?_
    rw [heq, hnames]
    exact List.mem_cons_self
  · intro name entry hname hentry
    rw [hfile] at hname
    exact hself entry (Option.some.inj hname ▸ hentry)
  · rw [hfile, htemporary]
    exact fun hne ↦ absurd rfl hne

theorem move_rename (h : s.Ordered) (hu : s.uploads.lookup id = some u) (hphase : u.phase = .staged)
    {entry : RootEntry} (hentry : s.root.lookup u.temporary = some entry) {key : String}
    (hfresh : key ∉ s.used) :
    Move s ({ s with
      root := (s.root.erase u.temporary).insert key entry
      used := key :: s.used }.setUpload id { u with phase := .renamed key }) := by
  have hused : u.temporary ∈ s.used := (h.issued id u hu u.temporary List.mem_cons_self).1
  have hne : u.temporary ≠ key := fun heq ↦ hfresh (heq ▸ hused)
  have hfile : u.file? = some u.temporary := by rw [Upload.file?, hphase]
  refine .advance id _ rfl rfl (List.subset_cons_self _ _) (fun name hname ↦ ?_) (fun name hname ↦ ?_)
    ?_ fun _ ↦ ?_
  · rcases List.mem_cons.mp hname with rfl | hkey
    · exact ⟨List.mem_cons_of_mem _ hused, Or.inr ⟨u, hu, List.mem_cons_self⟩⟩
    · have heq : name = key := List.mem_singleton.mp hkey
      subst heq
      exact ⟨List.mem_cons_self, Or.inl hfresh⟩
  · have hother : name ≠ u.temporary := fun heq ↦ hname (heq ▸ List.mem_cons_self)
    have hkey : name ≠ key := fun heq ↦ hname (List.mem_cons_of_mem _ (List.mem_singleton.mpr heq))
    exact (AList.lookup_insert_ne hkey).trans (AList.lookup_erase_ne hother)
  · intro name found hname hfound
    cases hname
    have heq : entry = found := by
      have hinsert : some entry = some found := (AList.lookup_insert _).symm.trans hfound
      exact Option.some.inj hinsert
    exact heq ▸ h.dated id u u.temporary entry hu hfile hentry
  · exact (AList.lookup_insert_ne hne).trans (AList.lookup_erase _ _)

/-- **Every step of an upload is a move.** -/
theorem move_stepUpload (h : s.Ordered) (hu : s.uploads.lookup id = some u) (time : ℚ)
    (action : BlobAction) (hadmits : s.Admits action) : Move s (s.stepUpload time id u action) := by
  have hfile : ∀ entry, u.phase = .writing → s.root.lookup u.temporary = some entry →
      ∃ mtime, entry = .file mtime := fun entry hphase hentry ↦
    ⟨u.lastWrite, h.dated id u u.temporary entry hu (by rw [Upload.file?, hphase]) hentry⟩
  cases action with
  | openFile i =>
    rw [stepUpload]
    split
    · next hopen =>
      refine Move.written h hu ?_ rfl (fun name hne ↦ AList.lookup_insert_ne hne) ?_
      · rw [Upload.names, Upload.names, Upload.key?, Upload.key?, hopen.1]
      · intro entry hentry
        rw [AList.lookup_insert] at hentry
        exact (Option.some.inj hentry).symm
    · exact Move.refl s
  | write i =>
    rw [stepUpload]
    split
    · next hphase =>
      have hnames : Upload.names { u with lastWrite := time } = u.names := rfl
      refine Move.written h hu hnames ?_ (fun name hne ↦ touched_of_ne hne time) ?_
      · rw [Upload.file?, hphase]
      · exact fun entry ↦ touched_self fun found ↦ hfile found hphase
    · exact Move.refl s
  | close i =>
    rw [stepUpload]
    split
    · next hphase =>
      refine Move.phase h hu ?_ ?_ rfl
      · rw [Upload.names, Upload.names, Upload.key?, Upload.key?, hphase]
      · rw [Upload.file?, Upload.file?, hphase]
    · exact Move.refl s
  | rename i revisionId =>
    rw [stepUpload]
    split
    · next entry hphase hentry => exact move_rename h hu hphase hentry hadmits
    · exact Move.refl s
  | sync i =>
    rw [stepUpload]
    split
    · next key hphase =>
      refine Move.phase h hu ?_ ?_ rfl
      · rw [Upload.names, Upload.names, Upload.key?, Upload.key?, hphase]
      · rw [Upload.file?, Upload.file?, hphase]
    · exact Move.refl s
  | insert i =>
    rw [stepUpload]
    split
    · next key hphase =>
      refine Move.phase h hu ?_ ?_ rfl
      · rw [Upload.names, Upload.names, Upload.key?, Upload.key?, hphase]
      · rw [Upload.file?, Upload.file?, hphase]
    · exact Move.refl s
  | commit i =>
    rw [stepUpload]
    split
    · next key hphase =>
      have hkey : u.file? = some key := by rw [Upload.file?, hphase]
      refine .shrink (fun _ _ hv ↦ (lookup_erase_eq_some.mp hv).2) (fun found hfound ↦ ?_) rfl
        fun _ ↦ Or.inl rfl
      rcases List.mem_cons.mp hfound with rfl | hold
      · exact Or.inr ⟨id, u, hu, AList.lookup_erase id _, hkey, Upload.mem_names_of_file hkey⟩
      · exact Or.inl hold
    · exact Move.refl s
  | fail i => exact Move.ended (unlinked_lookup s.root u.cleanup)
  | crash i => exact Move.ended fun _ ↦ Or.inl rfl
  | stage | beginSweep | selectKeys | examine | unlink | endSweep => exact Move.refl s

/-- A sweep may take a file away, and changes nothing else of the store. -/
theorem move_stepSweep (w : Sweep) (action : BlobAction) : Move s (s.stepSweep id w action).2 := by
  have hmoved : ∀ s' : BlobStore, s'.uploads = s.uploads → s'.committed = s.committed →
      s'.used = s.used →
      (∀ name, s'.root.lookup name = s.root.lookup name ∨ s'.root.lookup name = none) → Move s s' :=
    fun s' huploads hcommitted hused hroot ↦
      .shrink (fun _ _ h ↦ huploads ▸ h) (fun _ h ↦ Or.inl (hcommitted ▸ h)) hused hroot
  have hsame : ∀ s' : BlobStore, s'.uploads = s.uploads → s'.committed = s.committed →
      s'.used = s.used → s'.root = s.root → Move s s' :=
    fun s' huploads hcommitted hused hroot ↦
      hmoved s' huploads hcommitted hused fun _ ↦ Or.inl (by rw [hroot])
  cases action with
  | selectKeys i =>
    rw [stepSweep]
    split <;> exact hsame _ rfl rfl rfl rfl
  | examine i name =>
    rw [stepSweep]
    split
    · split <;> exact hsame _ rfl rfl rfl rfl
    · exact Move.refl s
  | unlink i =>
    rw [stepSweep]
    split
    · exact Move.refl s
    · next name _ =>
      have herase : ∀ found, (s.root.erase name).lookup found = s.root.lookup found ∨
          (s.root.erase name).lookup found = none := by
        intro found
        by_cases heq : found = name
        · exact Or.inr (heq ▸ AList.lookup_erase name s.root)
        · exact Or.inl (AList.lookup_erase_ne heq)
      split
      · exact hmoved _ rfl rfl rfl herase
      · exact hmoved _ rfl rfl rfl herase
      · exact hsame _ rfl rfl rfl rfl
      · exact hsame _ rfl rfl rfl rfl
  | endSweep i => exact hsame _ rfl rfl rfl rfl
  | _ => exact Move.refl s

end Steps

end BlobStore

end MeetingRag
