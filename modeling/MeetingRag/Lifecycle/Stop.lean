import MeetingRag.Lifecycle.Commands

/-!
# Starting and stopping the N4 stack

`stop` tears down what a manifest records: it compares the resources of the project with the recorded ones,
runs `docker compose down`, removes the drive mapping, and writes the manifest before and after each step.
`start` brings a fresh project up and calls `stop` when it fails halfway.
-/

open Py Py.Json Program

namespace MeetingRag

namespace Compose

section Stop

variable (h : Host)

/-! ## The manifest -/

/-- `read_manifest`. -/
def readManifest : Proc Fields := do
  let loaded ← (perform Operation.load : Proc Loaded)
  match loaded with
  | .json (.object fields) => .done fields
  | .json _ => ofExcept (fail "manifest must be a JSON object")
  | _ => ofExcept (fail "cannot read manifest")

/-- `validate_manifest_identity`. -/
def validateManifestIdentity (manifest : Fields) : Except Failure Unit :=
  ensure (same (get manifest "schema") (.str (lit "axit.n4-compose-run")) = true ∧
    same (get manifest "version") (.int 1) = true) "unsupported N4 manifest schema"

/-- `ACTIVE_STATUSES`. -/
def activeStatuses : List String :=
  ["starting", "running", "start_failed", "cleanup_pending", "cleanup_failed"]

/-- `archive_completed_manifest`. -/
def archiveCompletedManifest : Proc Unit := do
  let loaded ← (perform Operation.load : Proc Loaded)
  match loaded with
  | .missing => .done ()
  | .json (.object fields) =>
    -- a status that no set can hold is a `TypeError`
    if (get fields "status").Unhashable then .raise .other
    else do
      ofExcept (ensure (¬(get fields "status").OneOf activeStatuses)
        "an active N4 manifest already exists")
      perform Operation.archive
  | .json _ => ofExcept (fail "manifest must be a JSON object")
  | .unreadable => ofExcept (fail "cannot read manifest")

/-- `_phase0_equal`. -/
def phase0Equal (before : Json) (after : Snapshot) : Except Failure Unit :=
  ensure (same before after.json = true) "axit-phase0 changed during isolated lifecycle"

/-- `manifest.get("phase0_before", {})`. -/
def phase0Before (manifest : Fields) : Json :=
  if Has manifest "phase0_before" then get manifest "phase0_before" else .object []

/-- The snapshot of the protected project is what it was. -/
def checkPhase0 (manifest : Fields) : Proc Unit := do
  let phase0 ← snapshotProject h protectedProject
  ofExcept (phase0Equal (phase0Before manifest) phase0)

/-! ## Ownership -/

/-- `EXPECTED_SERVICES`. -/
def expectedServices : List String := ["postgres", "migrate", "api", "orchestrator", "web"]

/-- `row.get("id")` for the rows of a manifest. -/
def rowIds (rows : List Json) : Except Failure (List Json) := rows.mapM (memberOr .null "id")

/-- The row of a manifest with an identifier: the last one counts. -/
def rowOf (rows : List Json) (id : Str) : Json :=
  (rows.reverse.find? fun row ↦ match row with
    | .object fields => decide (EqStr id (get fields "id"))
    | _ => false).getD .null

/-- The round of `assert_resource_ownership` for a resource. -/
def assertRow (project : Str) (kind : Kind) (rows : List Json) (r : Resource) : Except Failure Unit := do
  let label ← memberOr .null "com.docker.compose.project" r.labels
  ensure (EqStr project label) ("wrong project label on " ++ kind.name)
  let service ← memberOr .null "com.docker.compose.service" r.labels
  if kind = .containers then do
    ensure (truthy service = true) "container service label is missing"
    if service.Unhashable then .error .other
    else ensure (service.OneOf expectedServices) "container service label is not an expected N4 service"
  let expected ← memberOr (.object []) "labels" (rowOf rows r.id)
  let expectedLabel ← memberOr .null "com.docker.compose.project" expected
  ensure (same label expectedLabel = true) ("manifest project label mismatch on " ++ kind.name)
  if kind = .containers then do
    let expectedService ← memberOr .null "com.docker.compose.service" expected
    ensure (same service expectedService = true) "manifest container service label mismatch"

/-- The round of `assert_resource_ownership` for a kind. -/
def assertKind (project : Str) (resources : Fields) (current : Snapshot) (kind : Kind) :
    Except Failure Unit :=
  match (if Has resources kind.name then get resources kind.name else .array []) with
  | .array rows => do
    let ids ← rowIds rows
    if ids.any fun id ↦ id.Unhashable then .error .other
    else do
      ensure ((∀ id ∈ ids, ∃ r ∈ current.of kind, EqStr r.id id) ∧
        ∀ r ∈ current.of kind, ∃ id ∈ ids, EqStr r.id id) (kind.name ++ " ID set mismatch")
      (current.of kind).forM (assertRow project kind rows)
  | _ => fail ("invalid " ++ kind.name ++ " ownership data")

/-- `assert_resource_ownership`. -/
def assertResourceOwnership (manifest : Fields) (current : Snapshot) (target : ComposeTarget h) :
    Except Failure Unit := do
  ensure (same (get manifest "config_paths") target.configPaths = true)
    "manifest compose config paths changed"
  match get manifest "project" with
  | .str project => do
    ensure (lit "axit-n4-" <+: project) "manifest project is not an owned N4 project"
    match get manifest "resources" with
    | .object resources => [Kind.containers, .networks, .volumes].forM (assertKind project resources current)
    | _ => fail "manifest resources are missing"
  | _ => fail "manifest project is not an owned N4 project"

/-! ## Stopping -/

/-- Write a failure into the manifest and go on raising. -/
def recording {α : Type} (manifest : Fields) (p : Proc α) : Proc α := rescue p fun message ↦ do
  save manifest
  .raise (.lifecycle message)

def mismatch (code : String) : List (String × Json) :=
  [("cleanup_status", .str (lit "ownership_mismatch")), ("cleanup_error_code", .str (lit code))]

/-- The manifest of a start whose resources could not be captured. -/
def Recovering (manifest : Fields) : Prop :=
  EqStr (lit "start_failed") (get manifest "status") ∧
    EqStr (lit "capture_retry_exhausted") (get manifest "cleanup_status")

instance : DecidablePred Recovering := fun manifest ↦
  inferInstanceAs (Decidable (EqStr (lit "start_failed") (get manifest "status") ∧
    EqStr (lit "capture_retry_exhausted") (get manifest "cleanup_status")))

/-- The part of `stop` that adopts the resources of such a start. -/
def recoverCapture (manifest : Fields) (current : Snapshot) (target : ComposeTarget h) : Proc Fields :=
  if Recovering manifest then do
    ofExcept (assertResourceOwnership h (update manifest [("resources", current.json)]) current target)
    checkPhase0 h manifest
    let manifest := update manifest [("resources", current.json),
      ("cleanup_status", .str (lit "recovery_captured"))]
    save manifest
    .done manifest
  else .done manifest

/-- The checks before anything is removed. -/
def assertOwned (manifest : Fields) (current : Snapshot) (target : ComposeTarget h) : Proc Unit := do
  ofExcept (assertResourceOwnership h manifest current target)
  checkPhase0 h manifest
  match get manifest "subst" with
  | .null => .done ()
  | subst => validateSubstOwnership h subst

/-- `int(manifest["ports"][name])`. -/
def portOf (manifest : Fields) (name : String) : Except Failure ℤ :=
  match get manifest "ports" with
  | .object ports => if Has ports name then h.int (get ports name) else .error .other
  | _ => .error .other

/-- The record that the resources are gone. -/
def removed (current : Snapshot) (argv : Json) : List (String × Json) :=
  [("status", .str (lit "cleanup_pending")), ("cleanup_status", .str (lit "compose_down_succeeded")),
    ("removed_resources", current.json), ("teardown_argv", argv)]

variable {h} in
/-- `target.argv("down", "-v", "--remove-orphans")`. -/
def ComposeTarget.down (target : ComposeTarget h) : List Str := target.argv ["down", "-v", "--remove-orphans"]

/-- The removal of the resources. -/
def composeDown (manifest : Fields) (current : Snapshot) (target : ComposeTarget h) : Proc Fields := do
  let web ← ofExcept (portOf h manifest "web")
  let api ← ofExcept (portOf h manifest "api")
  let result ← runner target.down (some (web, api))
  if result.returncode ≠ 0 then do
    save (update manifest [("cleanup_status", .str (lit "compose_down_failed"))])
    ofExcept (fail "compose down failed")
  else do
    let remaining ← capture h target.project 3
    if remaining.HasResources then do
      save (update manifest [("cleanup_status", .str (lit "resources_remain"))])
      ofExcept (fail "owned resources remain after compose down")
    else do
      let manifest := update manifest (removed current (strings target.down))
      save manifest
      .done manifest

/-- The part of `stop` up to `status = "cleanup_pending"`. -/
def removeResources (manifest : Fields) (target : ComposeTarget h) : Proc Fields :=
  if EqStr (lit "cleanup_pending") (get manifest "status") then .done manifest
  else do
    let current ← snapshotProject h target.project
    let manifest ← recording (update manifest (mismatch "ownership_validation_failed"))
      (recoverCapture h manifest current target)
    recording (update manifest (mismatch "ownership_validation_failed"))
      (assertOwned h manifest current target)
    if current.HasResources then composeDown h manifest current target
    else do
      let manifest := update manifest (removed current .null)
      save manifest
      .done manifest

/-- The removal of the drive mapping. -/
def removeSubst (manifest : Fields) : Proc Fields :=
  match get manifest "subst" with
  | .null => .done manifest
  | subst => do
    recording (update manifest [("cleanup_status", .str (lit "subst_cleanup_blocked")),
      ("cleanup_error_code", .str (lit "subst_ownership_validation_failed"))]) (removeOwnedSubst h subst)
    let manifest := update manifest [("removed_subst", subst), ("subst", .null)]
    save manifest
    .done manifest

/-- The last part of `stop`. -/
def finishStop (manifest : Fields) : Proc Fields := do
  recording (update manifest [("cleanup_status", .str (lit "phase0_invariant_failed")),
    ("cleanup_error_code", .str (lit "protected_project_changed"))]) (checkPhase0 h manifest)
  let manifest := update manifest [("status", .str (lit "stopped"))]
  -- `setdefault("status_history", []).append("stopped")`
  match (if Has manifest "status_history" then get manifest "status_history" else .array []) with
  | .array history => do
    let manifest := update manifest [("status_history", .array (history ++ [.str (lit "stopped")])),
      ("cleanup_status", .str (lit "stopped")), ("stopped_at", .str h.now)]
    save manifest
    .done manifest
  | _ => .raise .other

/-- `Lifecycle.stop`. -/
def stop : Proc Fields := do
  let manifest ← readManifest
  ofExcept (validateManifestIdentity manifest)
  let target ← recording (update manifest (mismatch "config_ownership_validation_failed"))
    (ofExcept (targetFromManifest h manifest))
  let manifest ← removeResources h manifest target
  let manifest ← removeSubst h manifest
  finishStop h manifest

/-! ## Starting -/

/-- `manifest["status_history"].append(status)`. -/
def appendStatus (manifest : Fields) (status : String) : Fields :=
  match get manifest "status_history" with
  | .array history => update manifest [("status_history", .array (history ++ [.str (lit status)]))]
  | _ => manifest

/-- A start that has failed: the fields, and the status in the history. -/
def startFailed (manifest : Fields) (fields : List (String × Json)) : Fields :=
  appendStatus (update manifest (("status", .str (lit "start_failed")) :: fields)) "start_failed"

/-- `_finish_failed_start`. -/
def finishFailedStart (manifest : Fields) (failure : String) : Proc Fields := do
  save (startFailed manifest [("start_failure", .str (lit failure))])
  let _ ← rescue (stop h) fun cleanup ↦
    .raise (.lifecycle (lit failure ++ lit "; partial-start cleanup blocked: " ++ cleanup))
  .raise (.lifecycle (lit failure ++ lit "; partial-start resources safely removed"))

/-- `record_subst`, for a drive and the record, or to take it back. -/
def recordSubst (manifest : Fields) (record : Option (Str × List (String × Json))) : Proc Fields := do
  let manifest := match record with
    | some (drive, fields) => update manifest [("subst", .object (obj fields)),
        ("config_paths", strings [h.drivePath drive "docker-compose.yml",
          h.drivePath drive "docker-compose.n4.yml"])]
    | none => update manifest [("subst", .null), ("config_paths", strings [h.base, h.override])]
  save manifest
  .done manifest

/-- The letters from `Z` down to `D`. -/
def driveLetters : List Char := "ZYXWVUTSRQPONMLKJIHGFED".toList

/-- `create_subst_mapping` over some letters: the manifest as it is then, and the drive with its record or
the message of the `LifecycleError`. -/
def createSubstMapping (manifest : Fields) : List Char → Proc (Fields × Except Str (Str × Json))
  | [] => .done (manifest, .error (lit "no unused subst drive is available"))
  | letter :: letters => do
    let drive := [codePoint letter, 58]
    let target := rstripBackslash h.root
    let mapping ← substMapping h drive
    if mapping.isSome then createSubstMapping manifest letters
    else do
      let manifest ← recordSubst h manifest (some (drive, [("drive", .str drive), ("target", .str target),
        ("created_by_run", .bool false), ("creation_pending", .bool true)]))
      let result ← runner [lit "subst", drive, target] none
      if result.returncode ≠ 0 then do
        let manifest ← recordSubst h manifest none
        createSubstMapping manifest letters
      else do
        let record := [("drive", Json.str drive), ("target", .str target), ("created_by_run", .bool true)]
        let manifest ← recordSubst h manifest (some (drive, record))
        rescue (do
          validateSubstOwnership h (.object (obj record))
          .done (manifest, .ok (drive, .object (obj record)))) fun message ↦
            .done (manifest, .error message)

/-- `ComposeTarget` on a drive. -/
def driveTarget (name drive : Str) : Except Failure (ComposeTarget h) :=
  composeTarget h name (h.drivePath drive "docker-compose.yml") (h.drivePath drive "docker-compose.n4.yml")

/-- `docker compose config`, resolved and checked. -/
def resolveConfig (name : Str) (ports : ℤ × ℤ) (result : Completed) : Except Failure Unit := do
  let resolved ← jsonOutput h result "compose config"
  h.validateConfig resolved ports name

/-- `assert_expected_services`. -/
def assertExpectedServices (resources : Snapshot) : Except Failure Unit := do
  let services ← resources.containers.mapM fun r ↦ memberOr .null "com.docker.compose.service" r.labels
  if services.any fun service ↦ service.Unhashable then .error .other
  else
    ensure ((∀ service ∈ services, service.OneOf expectedServices) ∧
      ∀ name ∈ expectedServices, ∃ service ∈ services, EqStr (lit name) service)
      "owned container service set is incomplete"

/-- `_capture`, with the record of a start whose resources cannot be captured. -/
def captureStarted (manifest : Fields) (name : Str) : Proc Snapshot :=
  recording (startFailed manifest [("start_failure", .str (lit "resource_capture_failed")),
    ("cleanup_status", .str (lit "capture_retry_exhausted"))]) (capture h name 3)

/-- The part of `start` after the resources are known: the protected project, the result of `up`, the
services. -/
def settle (manifest : Fields) (target : ComposeTarget h) (ports : ℤ × ℤ) (up : Completed)
    (resources : Snapshot) : Proc Fields := do
  recording (startFailed manifest [("start_failure", .str (lit "phase0_invariant_failed")),
    ("cleanup_status", .str (lit "ownership_mismatch")),
    ("cleanup_error_code", .str (lit "protected_project_changed"))]) (checkPhase0 h manifest)
  if up.returncode ≠ 0 then do
    let manifest := update manifest [("start_diagnostic", (h.diagnostic up).1)]
    let manifest ← if (h.diagnostic up).2 ≠ [] then do
        let logs ← runner (target.argv ["logs", "--no-color", "--tail", "40"] ++ (h.diagnostic up).2)
          (some ports)
        .done (update manifest [("service_log_diagnostic", (h.diagnostic logs).1)])
      else .done manifest
    finishFailedStart h manifest "compose_health_gate_failed"
  else
    match assertExpectedServices resources with
    | .error (.lifecycle _) => finishFailedStart h manifest "expected_services_incomplete"
    | .error .other => .raise .other
    | .ok () => do
      let manifest := appendStatus (update manifest [("status", .str (lit "running"))]) "running"
      save manifest
      .done manifest

/-- The second attempt of `start`, on a drive: the manifest as it is then, and the target or the
`LifecycleError`. -/
def retryPreflight (manifest : Fields) (name : Str) (ports : ℤ × ℤ) :
    Proc (Fields × Option (ComposeTarget h)) := do
  let unchanged ← rescue (do checkPhase0 h manifest; .done true) fun _ ↦ .done false
  if unchanged = false then .done (manifest, none)
  else do
    let (manifest, created) ← createSubstMapping h manifest driveLetters
    match created with
    | .error _ => .done (manifest, none)
    | .ok (drive, _) =>
      match driveTarget h name drive with
      | .error (.lifecycle _) => .done (manifest, none)
      | .error .other => .raise .other
      | .ok target => do
        let config ← runner (target.argv ["config", "--format", "json"]) (some ports)
        let manifest := if config.returncode ≠ 0 then
            update manifest [("subst_retry_diagnostic", (h.diagnostic config).1)]
          else manifest
        match resolveConfig h name ports config with
        | .error (.lifecycle _) => .done (manifest, none)
        | .error .other => .raise .other
        | .ok () => .done (manifest, some target)

/-- `target.argv("up", "--build", "-d", "--wait")`. -/
def ComposeTarget.up {h : Host} (target : ComposeTarget h) : List Str :=
  target.argv ["up", "--build", "-d", "--wait"]

/-- The part of `start` from the first `up`. -/
def launch (manifest : Fields) (subst : Json) (target : ComposeTarget h) (ports : ℤ × ℤ) : Proc Fields := do
  let manifest := update manifest [("subst", subst), ("config_paths", target.configPaths)]
  save manifest
  let up ← runner target.up (some ports)
  let resources ← captureStarted h manifest target.project
  let manifest := update manifest [("resources", resources.json)]
  if truthy subst = false ∧ ¬resources.HasResources ∧ h.isGrpcFailure up = true then do
    let manifest := update manifest [("start_diagnostic", (h.diagnostic up).1)]
    let (manifest, retried) ← retryPreflight h manifest target.project ports
    match retried with
    | none =>
      finishFailedStart h (update manifest [("resources", resources.json)]) "subst_retry_preflight_failed"
    | some target => do
      let manifest := update manifest
        [("subst_retry", .str (lit "up_non_ascii_buildkit_grpc_failure"))]
      save manifest
      let up ← runner target.up (some ports)
      let resources ← captureStarted h manifest target.project
      settle h (update manifest [("resources", resources.json)]) target ports up resources
  else settle h manifest target ports up resources

/-- The part of `start` with a resolved configuration. -/
def configure (manifest : Fields) (subst : Json) (target : ComposeTarget h) (ports : ℤ × ℤ)
    (config : Completed) : Proc Fields :=
  match resolveConfig h target.project ports config with
  | .ok () => launch h manifest subst target ports
  | .error .other => .raise .other
  | .error (.lifecycle message) =>
    match subst with
    | .null => .raise (.lifecycle message)
    | subst => do
      recording (startFailed manifest
        [("start_failure", .str (lit "compose_config_validation_failed")),
          ("cleanup_status", .str (lit "subst_cleanup_blocked")),
          ("cleanup_error_code", .str (lit "subst_ownership_validation_failed"))]) (removeOwnedSubst h subst)
      let _ ← recordSubst h manifest none
      .raise (.lifecycle message)

/-- The manifest of a start. -/
def freshManifest (name : Str) (ports : ℤ × ℤ) (phase0 : Snapshot) (webHost webUrl : Str) : Fields :=
  obj [("schema", .str (lit "axit.n4-compose-run")), ("version", .int 1),
    ("status", .str (lit "starting")), ("status_history", .array [.str (lit "starting")]),
    ("project", .str name), ("source_config_paths", strings [h.base, h.override]),
    ("config_paths", strings [h.base, h.override]), ("started_at", .str h.now),
    ("ports", .object (obj [("web", .int ports.1), ("api", .int ports.2), ("postgres", .null)])),
    ("web_url", .str webUrl), ("public_host", .str webHost), ("public_origin", .str webUrl),
    ("subst", .null), ("resources", Snapshot.empty.json), ("phase0_before", phase0.json)]

/-- `Lifecycle.start`, for the name of the new project, the ports that the selector has found, and the host
and the address of the site on them. -/
def start (name : Str) (ports : ℤ × ℤ) (webHost webUrl : Str) : Proc Fields := do
  archiveCompletedManifest
  let target ← ofExcept (composeTarget h name h.base h.override)
  ofExcept (ensure (ports.1 ≠ ports.2) "web and API ports must be distinct")
  let present ← snapshotProject h name
  ofExcept (ensure (¬present.HasResources) "unique proof project is unexpectedly nonempty")
  let phase0 ← snapshotProject h protectedProject
  let manifest := freshManifest h name ports phase0 webHost webUrl
  let config ← runner (target.argv ["config", "--format", "json"]) (some ports)
  if config.returncode ≠ 0 ∧ h.isGrpcFailure config = true then do
    let (manifest, created) ← createSubstMapping h manifest driveLetters
    match created with
    | .error message => do
      save (startFailed manifest [("start_failure", .str (lit "subst_validation_failed")),
        ("cleanup_status", .str (lit "subst_cleanup_blocked")),
        ("cleanup_error_code", .str (lit "subst_mapping_query_failed"))])
      .raise (.lifecycle message)
    | .ok (drive, record) => do
      let target ← ofExcept (driveTarget h name drive)
      let config ← runner (target.argv ["config", "--format", "json"]) (some ports)
      configure h manifest record target ports config
  else configure h manifest .null target ports config

end Stop

end Compose

end MeetingRag
