import MeetingRag.Library.JsonText
import MeetingRag.Library.Program
import MeetingRag.Library.Regex

/-!
# The commands of the N4 lifecycle

The lifecycle of the isolated stack runs `docker` and `subst` through an injected runner, and keeps a
manifest in a file. It is a program whose operations are the commands and the accesses to the file, so that
what it does can be followed for any answers of the runner.

The manifest and what Docker prints are JSON of any shape. What the code reads from them fails with a
`LifecycleError` where the code raises one, and with another exception where a value has a shape that the
code does not expect.
-/

open Py Py.Json Program

namespace MeetingRag

namespace Compose

/-! ## Operations -/

/-- An exception: a `LifecycleError`, which the code catches, or another one, which it does not. -/
inductive Failure
  | lifecycle (message : Str)
  | other
deriving DecidableEq

/-- `subprocess.CompletedProcess`. -/
structure Completed where
  returncode : ℤ
  stdout : Str
  stderr : Str
deriving DecidableEq

/-- A command, with the ports of `compose_environment` where it has one, or an access to the manifest. -/
inductive Operation
  | run (argv : List Str) (ports : Option (ℤ × ℤ))
  | load
  | save (manifest : Fields)
  | archive

/-- What is in the file of the manifest. -/
inductive Loaded
  | missing
  | unreadable
  | json (value : Json)

@[reducible] def Answer : Operation → Type
  | .run _ _ => Completed
  | .load => Loaded
  | .save _ => Unit
  | .archive => Unit

abbrev Proc (α : Type) := Program Answer Failure α

/-- `self.runner(argv, env)`. -/
def runner (argv : List Str) (ports : Option (ℤ × ℤ)) : Proc Completed := perform (Operation.run argv ports)

/-- `atomic_write_json(self.manifest_path, manifest)`. -/
def save (manifest : Fields) : Proc Unit := perform (Operation.save manifest)

/-- `except LifecycleError`. -/
def rescue {α : Type} (p : Proc α) (h : Str → Proc α) : Proc α := p.handle fun
  | .lifecycle message => h message
  | .other => .raise .other

def fail {α : Type} (message : String) : Except Failure α := .error (.lifecycle (lit message))

def ensure (c : Prop) [Decidable c] (message : String) : Except Failure Unit :=
  if c then .ok () else fail message

theorem ensure_eq_ok {c : Prop} [Decidable c] {message : String} {w : Unit} :
    ensure c message = .ok w ↔ c := by
  rw [ensure]
  split <;> simp [*, fail]

/-- What the lifecycle finds around it: how Python writes a value (`str`), reads a number (`int`), folds
case and knows decimal digits, how paths work, where the repository is, and what time it is. The functions
that look at the output of a failed command and at the resolved configuration are taken as they come. -/
structure Host where
  str : Json → Str
  str_str : ∀ s, str (.str s) = s
  int : Json → Except Failure ℤ
  casefold : Str → Str
  digit : CodePoint → Bool
  isAbsolute : Str → Bool
  /-- `str(Path(f"{drive}\\{name}"))`. -/
  drivePath : Str → String → Str
  /-- The depth to which JSON is read. -/
  limit : ℕ
  root : Str
  base : Str
  override : Str
  now : Str
  /-- `_is_non_ascii_buildkit_grpc_failure`. -/
  isGrpcFailure : Completed → Bool
  /-- `compose_failure_diagnostic`, and its `failing_services`. -/
  diagnostic : Completed → Json × List Str
  /-- `validate_resolved_config`. -/
  validateConfig : Json → ℤ × ℤ → Str → Except Failure Unit

/-! ## Values -/

/-- `value.get(name, default)`. -/
def memberOr (default : Json) (name : String) : Json → Except Failure Json
  | .object fields => .ok (if Has fields name then get fields name else default)
  | _ => .error .other

/-- `bool(value)`. -/
def truthy : Json → Bool
  | .null => false
  | .bool b => b
  | .int n => n ≠ 0
  | .float x => x ≠ .finite 0
  | .str s => s ≠ []
  | .array items => items ≠ []
  | .object fields => fields ≠ []

/-- `a or b`. -/
def orElse (a b : Json) : Json := if truthy a then a else b

/-- A value that Python compares as a number. -/
def number? : Json → Option ℚ
  | .bool b => some (if b then 1 else 0)
  | .int n => some n
  | .float (.finite q) => some q
  | _ => none

mutual

/-- `a == b`. The order of the keys of a dict does not count. -/
def same : Json → Json → Bool
  | .null, .null => true
  | .str s, .str t => s = t
  | .array xs, .array ys => sameItems xs ys
  | .object xs, .object ys => xs.length = ys.length && sameFields xs ys
  | .float .inf, .float .inf => true
  | .float .negInf, .float .negInf => true
  | a, b => match number? a, number? b with
    | some x, some y => x = y
    | _, _ => false

def sameItems : List Json → List Json → Bool
  | [], [] => true
  | x :: xs, y :: ys => same x y && sameItems xs ys
  | _, _ => false

def sameFields : List (Str × Json) → List (Str × Json) → Bool
  | [], _ => true
  | (key, x) :: xs, ys => (match ys.lookup key with
    | some y => same x y
    | none => false) && sameFields xs ys

end

/-- `dict.update`. -/
def update (fields : Fields) (items : List (String × Json)) : Fields :=
  items.foldl (fun fields p ↦ setItem fields (lit p.1, p.2)) fields

def strings (texts : List Str) : Json := .array (texts.map .str)

/-- The characters that end a line for `str.splitlines`. -/
def isLineEnd (c : CodePoint) : Bool :=
  c.val ∈ [10, 11, 12, 13, 28, 29, 30, 0x85, 0x2028, 0x2029]

/-- The lines of the rest of a text, when a line has begun with `line`. -/
def splitlinesFrom (line : Str) : Str → List Str
  | [] => if line = [] then [] else [line]
  | c :: rest =>
    -- a carriage return belongs to the line feed after it
    if c = 13 ∧ rest.head? = some 10 then splitlinesFrom line rest
    else if isLineEnd c then line :: splitlinesFrom [] rest
    else splitlinesFrom (line ++ [c]) rest

/-- `str.splitlines`. -/
def splitlines (s : Str) : List Str := splitlinesFrom [] s

/-- `text.rstrip("\\")`. -/
def rstripBackslash (s : Str) : Str := s.rdropWhile (· = 92)

/-! ## Snapshots -/

inductive Kind
  | containers | networks | volumes
deriving DecidableEq

def Kind.name : Kind → String
  | containers => "containers"
  | networks => "networks"
  | volumes => "volumes"

/-- `inspect_kind`. -/
def Kind.inspect : Kind → String
  | containers => "container"
  | networks => "network"
  | volumes => "volume"

/-- The command that lists the resources of a project. -/
def Kind.listArgv (project : Str) : Kind → List Str
  | containers => [lit "docker", lit "ps", lit "-a", lit "--filter",
      lit "label=com.docker.compose.project=" ++ project, lit "--format", lit "\x7b\x7bjson .\x7d\x7d"]
  | networks => [lit "docker", lit "network", lit "ls", lit "--filter",
      lit "label=com.docker.compose.project=" ++ project, lit "--format", lit "\x7b\x7bjson .\x7d\x7d"]
  | volumes => [lit "docker", lit "volume", lit "ls", lit "--filter",
      lit "label=com.docker.compose.project=" ++ project, lit "--format", lit "\x7b\x7bjson .\x7d\x7d"]

/-- A resource of a project: its identifier, its labels and the status of a container. -/
structure Resource where
  id : Str
  labels : Json
  status : Option Json

structure Snapshot where
  containers : List Resource
  networks : List Resource
  volumes : List Resource

def Snapshot.of (s : Snapshot) : Kind → List Resource
  | .containers => s.containers
  | .networks => s.networks
  | .volumes => s.volumes

def Snapshot.empty : Snapshot := ⟨[], [], []⟩

def Resource.json (r : Resource) : Json :=
  .object (obj ([("id", .str r.id), ("labels", r.labels)] ++
    match r.status with
    | some status => [("status", status)]
    | none => []))

def Snapshot.json (s : Snapshot) : Json :=
  .object (obj [("containers", .array (s.containers.map Resource.json)),
    ("networks", .array (s.networks.map Resource.json)),
    ("volumes", .array (s.volumes.map Resource.json))])

/-- `_has_resources`. -/
def Snapshot.HasResources (s : Snapshot) : Prop := ∃ kind, s.of kind ≠ []

instance (s : Snapshot) : Decidable s.HasResources :=
  decidable_of_iff (s.containers ≠ [] ∨ s.networks ≠ [] ∨ s.volumes ≠ []) ⟨fun h ↦ by
    obtain h | h | h := h
    · exact ⟨.containers, h⟩
    · exact ⟨.networks, h⟩
    · exact ⟨.volumes, h⟩, fun ⟨kind, h⟩ ↦ by
    cases kind with
    | containers => exact .inl h
    | networks => exact .inr (.inl h)
    | volumes => exact .inr (.inr h)⟩

section Commands

variable (h : Host)

/-- `json.loads`. -/
def parseJson (text : Str) : Except Failure Json :=
  match loads defaultHooks h.limit text with
  | .ok value => .ok value
  | .error _ => .error .other

/-- `_json_output`. -/
def jsonOutput (result : Completed) (purpose : String) : Except Failure Json :=
  if result.returncode ≠ 0 then
    .error (.lifecycle (lit purpose ++ lit " failed: " ++ strip result.stderr))
  else match loads defaultHooks h.limit (if result.stdout = [] then lit "[]" else result.stdout) with
    | .ok value => .ok value
    | .error .jsonDecodeError => .error (.lifecycle (lit purpose ++ lit " returned invalid JSON"))
    | .error _ => .error .other

/-- `value.get(a) or value.get(b) or value.get(c)`, as text. -/
def idOf (names : String × String × String) : Json → Except Failure Str
  | .object fields =>
    .ok (h.str (orElse (orElse (get fields names.1) (get fields names.2.1)) (get fields names.2.2)))
  | _ => .error .other

/-- The resource that `docker inspect` describes. -/
def resourceOf (kind : Kind) : Json → Except Failure Resource
  | .array (detail :: _) => do
    let config ← if kind = .containers then memberOr (.object []) "Config" detail else .ok detail
    let labels ← memberOr (.object []) "Labels" config
    let id ← idOf h ("Id", "ID", "Name") detail
    if kind = .containers then do
      let state ← memberOr (.object []) "State" detail
      let status ← memberOr .null "Status" state
      .ok ⟨id, orElse labels (.object []), some status⟩
    else .ok ⟨id, orElse labels (.object []), none⟩
  | _ => .error .other

/-- The round of `snapshot_project` for a line. -/
def snapshotRow (kind : Kind) (line : Str) : Proc Resource := do
  let row ← ofExcept (parseJson h line)
  let id ← ofExcept (idOf h ("ID", "Id", "Name") row)
  let result ← runner [lit "docker", lit kind.inspect, lit "inspect", id] none
  let inspected ← ofExcept (jsonOutput h result ("inspect " ++ kind.name))
  ofExcept (resourceOf h kind inspected)

def snapshotKind (project : Str) (kind : Kind) : Proc (List Resource) := do
  let result ← runner (kind.listArgv project) none
  if result.returncode ≠ 0 then
    .raise (.lifecycle (lit "cannot snapshot " ++ project ++ lit " " ++ lit kind.name ++ lit ": " ++
      strip result.stderr))
  else do
    let rows ← forEach (snapshotRow h kind) ((splitlines result.stdout).filter (strip · ≠ []))
    .done (rows.insertionSort fun a b ↦ a.id ≤ b.id)

/-- `snapshot_project`. -/
def snapshotProject (project : Str) : Proc Snapshot := do
  let containers ← snapshotKind h project .containers
  let networks ← snapshotKind h project .networks
  let volumes ← snapshotKind h project .volumes
  .done ⟨containers, networks, volumes⟩

/-- `_capture`. -/
def capture (project : Str) : ℕ → Proc Snapshot
  | 0 => .raise (.lifecycle (lit "resource capture retry exhausted"))
  | attempts + 1 => rescue (snapshotProject h project) fun _ ↦ capture project attempts

/-! ## Drives -/

/-- `_SUBST_ROW.fullmatch(line)`: the drive and the target. -/
def substRow (line : Str) : Option (Str × Str) :=
  match line.dropWhile isSpace with
  | letter :: 58 :: rest =>
    let rest := if rest.head? = some 92 then rest.tail else rest
    if ("abcdefghijklmnopqrstuvwxyz".toList.any fun c ↦ Regex.sameLetter c letter) ∧ rest.head? = some 58 then
      match (rest.tail.dropWhile isSpace) with
      | 61 :: 62 :: target => some ([letter, 58], strip target)
      | _ => none
    else none
  | _ => none

/-- The mapping of a drive in what `subst` prints. -/
def mappingIn (drive stdout : Str) : Option Str :=
  ((splitlines stdout).filterMap substRow).findSome? fun row ↦
    if h.casefold row.1 = h.casefold drive then some (h.casefold (rstripBackslash row.2)) else none

/-- `subst_mapping`. -/
def substMapping (drive : Str) : Proc (Option Str) := do
  let result ← runner [lit "subst"] none
  .done (if result.returncode ≠ 0 then none else mappingIn h drive result.stdout)

/-- `validate_subst_ownership`. -/
def validateSubstOwnership (subst : Json) : Proc Unit := do
  let drive ← ofExcept (memberOr (.str []) "drive" subst)
  let target ← ofExcept (memberOr (.str []) "target" subst)
  let created ← ofExcept (memberOr .null "created_by_run" subst)
  if truthy created = false then ofExcept (fail "subst ownership mismatch")
  else do
    let mapping ← substMapping h (h.str drive)
    ofExcept (ensure (mapping = some (h.casefold (rstripBackslash (h.str target))))
      "subst ownership mismatch")

/-- `remove_owned_subst`. -/
def removeOwnedSubst (subst : Json) : Proc Unit := do
  validateSubstOwnership h subst
  let drive ← ofExcept (memberOr (.str []) "drive" subst)
  let result ← runner [lit "subst", h.str drive, lit "/D"] none
  if result.returncode ≠ 0 then
    .raise (.lifecycle (lit "subst removal failed: " ++ strip result.stderr))
  else .done ()

/-! ## Targets -/

/-- `PROJECT_PATTERN`. -/
def projectPattern : Regex :=
  let digit : Regex := .char h.digit
  let alphanumeric : Regex :=
    .char fun c ↦ (97 ≤ c.val && c.val ≤ 122) || (48 ≤ c.val && c.val ≤ 57)
  Regex.all ([.text "axit-n4-"] ++ List.replicate 8 digit ++ [.text "t"] ++ List.replicate 6 digit ++
    [.text "z-", .plus digit, .text "-"] ++ List.replicate 8 alphanumeric)

/-- `PROJECT_PATTERN.fullmatch(project)`. -/
def IsProject (project : Str) : Prop :=
  ((projectPattern h).ends ⟨none, project⟩).any (fun place ↦ place.after = []) = true

instance (project : Str) : Decidable (IsProject h project) :=
  inferInstanceAs (Decidable (_ = true))

/-- `PROTECTED_PROJECT`. -/
def protectedProject : Str := lit "axit-phase0"

/-- `ComposeTarget`, which checks itself. -/
structure ComposeTarget where
  project : Str
  baseConfig : Str
  n4Config : Str
  isProject : IsProject h project
  unprotected : project ≠ protectedProject

/-- `ComposeTarget(project, base_config, n4_config)`. -/
def composeTarget (project baseConfig n4Config : Str) : Except Failure (ComposeTarget h) :=
  if hproject : IsProject h project ∧ project ≠ protectedProject then
    if h.isAbsolute baseConfig && h.isAbsolute n4Config then
      .ok ⟨project, baseConfig, n4Config, hproject.1, hproject.2⟩
    else fail "compose config paths must be absolute"
  else fail "N4 project must have the unique axit-n4- prefix"

variable {h}

/-- `ComposeTarget.argv`. -/
def ComposeTarget.argv (target : ComposeTarget h) (arguments : List String) : List Str :=
  [lit "docker", lit "compose", lit "-p", target.project, lit "-f", target.baseConfig, lit "-f",
    target.n4Config] ++ arguments.map lit

/-- The paths of a target, as the manifest has them. -/
def ComposeTarget.configPaths (target : ComposeTarget h) : Json :=
  strings [target.baseConfig, target.n4Config]

variable (h)

/-- `expected` of `_target_from_manifest`: the paths, on the drive where there is one. -/
def expectedPaths (manifest : Fields) : Except Failure (Str × Str) :=
  match get manifest "subst" with
  | .null => .ok (h.base, h.override)
  | subst => do
    let drive ← memberOr (.str []) "drive" subst
    .ok (h.drivePath (h.str drive) "docker-compose.yml",
      h.drivePath (h.str drive) "docker-compose.n4.yml")

/-- `_target_from_manifest`. -/
def targetFromManifest (manifest : Fields) : Except Failure (ComposeTarget h) := do
  ensure (same (get manifest "source_config_paths") (strings [h.base, h.override]) = true)
    "manifest source config paths changed"
  let expected ← expectedPaths h manifest
  ensure (same (get manifest "config_paths") (strings [expected.1, expected.2]) = true)
    "manifest effective config paths changed"
  composeTarget h (h.str (if Has manifest "project" then get manifest "project" else .str []))
    expected.1 expected.2

end Commands

end Compose

end MeetingRag
