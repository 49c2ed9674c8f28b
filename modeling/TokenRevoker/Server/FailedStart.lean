import TokenRevoker.Server.CoordinatorLives
import TokenRevoker.Server.MetaFile

/-! Starts of a coordinator that fail, and the shutdown with which `createCoordinator` cleans
up after them. The shutdown writes the meta file even if the canonical log is not initialized;
its last LSN is then -1, and no later start reads such a file. -/
namespace TokenRevoker

open Text

/-- What a start is rejected with: an error of the package, or that of `bindAsync`. -/
inductive StartError where
  | revoker (error : RevokerError)
  | bind (message : String)
  deriving DecidableEq

/-- What throws during a start. Of several that would end the start, the first that it comes to
does. -/
structure StartFaults where
  metaRead : Option String := none
  mkdir : Option String := none
  /-- A directory that cannot be listed counts as empty. -/
  unlisted : Bool := false
  readFile : Nat → Option String := fun _ => none
  createRevoker : Option String := none
  replayCanonicalTail : Option RevokerError := none
  metaWrite : Option String := none
  startServer : Option StartError := none
  /-- `meta.write` in `shutdown`. -/
  shutdownWrite : Option String := none

/-- A start that has thrown: the meta file by then, and what `shutdown` is going to write.
Before there is a canonical log it writes nothing. -/
structure FailedStart where
  error : StartError
  metaFile : Option SavedMeta
  shutdown : Option SavedMeta

/-- The meta file after that shutdown, whose own errors are swallowed. -/
def FailedStart.left (failed : FailedStart) (shutdownWrite : Option String) : Option SavedMeta :=
  match failed.shutdown, shutdownWrite with
  | some saved, none => some saved
  | _, _ => failed.metaFile

namespace Coordinator

/-- The first file of a log that cannot be read. -/
def unreadable (files : List (Nat × Bytes)) (readFile : Nat → Option String) : Option (Nat × String) :=
  files.findSome? fun file => (readFile file.1).map fun message => (file.1, message)

/-- The path that `init` gives to the meta file. -/
def metaPathOf (id walDir : String) : String := s!"{walDir}/coordinator-meta-{id}.json"

/-- `init` and `start` of the server, on the files of a log. The filter of the coordinator and
the socket of the server are left out; what they throw is among the faults. -/
def launch (id walDir : String) (files : List (Nat × Bytes)) (faults : StartFaults)
    (metaFile : Option SavedMeta) : Except FailedStart Coordinator :=
  let metaPath := metaPathOf id walDir
  match SavedMeta.read metaPath faults.metaRead metaFile with
  | .error error => .error ⟨.revoker error, metaFile, none⟩
  | .ok metaState =>
    match faults.mkdir with
    | some message =>
      .error ⟨.revoker (.internalError s!"Failed to create canonical WAL dir {walDir}: {message}"), metaFile, none⟩
    | none =>
      let canonical : CanonicalWal := { dir := walDir, revokerId := id, files := files }
      let listed := if faults.unlisted then [] else files
      match unreadable listed faults.readFile with
      | some (generation, message) =>
        let filePath := canonical.filePath generation
        .error ⟨.revoker (.internalError s!"Failed to read canonical WAL file {filePath}: {message}"), metaFile,
          some ⟨metaState.generation, -1, metaState.lastBackupLsn⟩⟩
      | none =>
        let scanned := CanonicalWal.scan { canonical with files := listed }
        let effectiveLastLsn := max metaState.lastLsn scanned.maxLsn
        let effectiveGeneration := max metaState.generation scanned.maxGeneration
        let initialized := canonical.init (effectiveLastLsn + 1) effectiveGeneration metaState.lastBackupLsn
        let derived : MetaState := ⟨effectiveGeneration, effectiveLastLsn, metaState.lastBackupLsn⟩
        let unsaved : SavedMeta := ⟨metaState.generation, initialized.lastLsn, metaState.lastBackupLsn⟩
        match faults.createRevoker, faults.replayCanonicalTail, faults.metaWrite, faults.startServer with
        | some message, _, _, _ =>
          .error ⟨.revoker (.internalError s!"Failed to initialize the coordinator's revoker: {message}"), metaFile,
            some unsaved⟩
        | none, some error, _, _ => .error ⟨.revoker error, metaFile, some unsaved⟩
        | none, none, some message, _ =>
          .error ⟨.revoker (Meta.writeFailed metaPath message), metaFile, some (.ofState derived)⟩
        | none, none, none, some error => .error ⟨error, some (.ofState derived), some (.ofState derived)⟩
        | none, none, none, none => .ok {
            id := id
            walDir := walDir
            canonical := initialized
            metaFile := some derived
            metaState := derived
            ready := true }

/-- `createCoordinator`: what becomes of the meta file, and the coordinator or the error. Its
caller is given the error of the start, never that of the shutdown. -/
def create (id walDir : String) (files : List (Nat × Bytes)) (faults : StartFaults)
    (metaFile : Option SavedMeta) : Option SavedMeta × Except StartError Coordinator :=
  match launch id walDir files faults metaFile with
  | .ok coordinator => (coordinator.metaFile.map .ofState, .ok coordinator)
  | .error failed => (failed.left faults.shutdownWrite, .error failed.error)

/-- A later start of a coordinator. -/
def again (c : Coordinator) (faults : StartFaults) (metaFile : Option SavedMeta) :
    Option SavedMeta × Except StartError Coordinator :=
  create c.id c.walDir c.canonical.files faults metaFile

/-- What is left of the meta file by a series of starts. The files of the log are the same for
all of them. -/
def attempts (c : Coordinator) (metaFile : Option SavedMeta) (starts : List StartFaults) : Option SavedMeta :=
  starts.foldl (fun metaFile faults => (c.again faults metaFile).1) metaFile

variable {c : Coordinator} {faults : StartFaults} {metaFile : Option SavedMeta}

/-- A coordinator with a log. -/
def logged : Coordinator := ((CoordinatorRestart.start "r" "canonical").add none (.ok ()) none [0x61]).1

end Coordinator

end TokenRevoker
