import TokenRevoker.Core.Item
import TokenRevoker.Library.SharedStore
import TokenRevoker.Library.Transition
import TokenRevoker.Server.CanonicalWal

/-! The directory that the canonical logs of several coordinators share. A log knows its
files by their names alone: between `canonical-<id>-` and `.wal` stand the digits of a
generation, and digits contain no hyphen. -/
namespace TokenRevoker

open Text Transition

/-- The name of such a file, as a text for messages. Ids and digits are ASCII. -/
def asciiText (name : JsString) : String := String.ofList (name.map fun unit => Char.ofNat unit.toNat)

/-- `value.slice(start, stop)`. -/
def slice (value : JsString) (start stop : Nat) : JsString := (value.take stop).drop start

def hyphen : UInt16 := 0x2D

/-- `canonical-`. -/
def canonicalText : JsString := [0x63, 0x61, 0x6E, 0x6F, 0x6E, 0x69, 0x63, 0x61, 0x6C, 0x2D]

/-- `.wal`. -/
def walSuffix : JsString := [0x2E, 0x77, 0x61, 0x6C]

/-- `coordinator-meta-`, `.json` and `.tmp`. -/
def metaText : JsString :=
  [0x63, 0x6F, 0x6F, 0x72, 0x64, 0x69, 0x6E, 0x61, 0x74, 0x6F, 0x72, 0x2D, 0x6D, 0x65, 0x74, 0x61, 0x2D]

def jsonSuffix : JsString := [0x2E, 0x6A, 0x73, 0x6F, 0x6E]

def tmpSuffix : JsString := [0x2E, 0x74, 0x6D, 0x70]

/-- The id of a coordinator whose options were accepted. Letters, digits, hyphens and
underscores, so no id contains a dot or a separator of paths. -/
structure RevokerId where
  text : JsString
  valid : idPattern text = true
  deriving DecidableEq

namespace RevokerId

/-- `canonical-<id>-`. -/
def filePrefix (id : RevokerId) : JsString := canonicalText ++ id.text ++ [hyphen]

/-- `#fileName`. -/
def fileName (id : RevokerId) (generation : Nat) : JsString :=
  id.filePrefix ++ decimal generation ++ walSuffix

/-- The coordinator's metadata, in the same directory, and the file it is written through. -/
def metaFileName (id : RevokerId) : JsString := metaText ++ id.text ++ jsonSuffix

def metaTmpName (id : RevokerId) : JsString := id.metaFileName ++ tmpSuffix

/-- What `#listGenerationFiles` reads off one name. -/
def generationOf (id : RevokerId) (name : JsString) : Option Nat :=
  if !id.filePrefix.isPrefixOf name || !walSuffix.isSuffixOf name then none
  else
    let generationPart := slice name id.filePrefix.length (name.length - walSuffix.length)
    if generationPart = [] || !generationPart.all isDigit then none
    else some (digitsValue generationPart 0)

/-- `#listGenerationFiles`: generations and names, by ascending generation. `readdirSync`
lists the names in its own order, or throws. -/
def listGenerationFiles (id : RevokerId) (readdir : Option (List JsString)) : List (Nat × JsString) :=
  match readdir with
  | none => []
  | some names =>
    let found := names.filterMap fun name => (id.generationOf name).map fun generation => (generation, name)
    found.insertionSort fun a b => a.1 ≤ b.1

end RevokerId

/-- What one log keeps in memory. Its directory and its id never change. -/
structure LogMemory where
  nextLsn : Nat := 0
  generation : Nat := 0
  deletedMaxLsn : Nat := 0
  initialized : Bool := false
  deriving DecidableEq

/-- A file that was opened or unlinked. Only the calls of the logs are recorded, those that fail
included. -/
inductive FileAccess where
  | read (name : JsString)
  | append (name : JsString)
  | unlink (name : JsString)
  deriving DecidableEq

def FileAccess.name : FileAccess → JsString
  | .read name | .append name | .unlink name => name

/-- The shared directory, what the log of each id keeps in memory, and which log has
accessed which file. -/
structure WalDirectory where
  dir : String
  files : AList fun _ : JsString => Bytes
  logs : RevokerId → LogMemory := fun _ => {}
  accesses : List (RevokerId × FileAccess) := []

/-- How the file system answers during one call: the names it lists, and the errors it throws.
Other programs do not act during a call: the calls are synchronous. -/
structure DiskAnswers where
  readdir : Option (List JsString)
  readFault : JsString → Option String := fun _ => none
  appendFault : Option String := none
  unlinkFails : JsString → Bool := fun _ => false

namespace WalDirectory

def filePath (s : WalDirectory) (name : JsString) : String := s.dir ++ "/" ++ asciiText name

def record (s : WalDirectory) (id : RevokerId) (access : FileAccess) : WalDirectory :=
  { s with accesses := s.accesses ++ [(id, access)] }

def setLog (s : WalDirectory) (id : RevokerId) (log : LogMemory) : WalDirectory :=
  { s with logs := Function.update s.logs id log }

/-- A new `CanonicalWal`. Until `init` only `scan` succeeds. -/
def construct (s : WalDirectory) (id : RevokerId) : WalDirectory := s.setLog id {}

def init (s : WalDirectory) (id : RevokerId) (nextLsn generation deletedMaxLsn : Nat) : WalDirectory :=
  s.setLog id ⟨nextLsn, generation, deletedMaxLsn, true⟩

def readFailed (s : WalDirectory) (name : JsString) (message : String) : RevokerError :=
  let path := s.filePath name
  .internalError s!"Failed to read canonical WAL file {path}: {message}"

def appendFailed (s : WalDirectory) (name : JsString) (message : String) : RevokerError :=
  let path := s.filePath name
  .internalError s!"Failed to append to canonical WAL {path}: {message}"

/-- What `readFileSync` says of a file that does not exist. -/
def notFound (s : WalDirectory) (name : JsString) : String :=
  let path := s.filePath name
  s!"ENOENT: no such file or directory, open \x27{path}\x27"

/-- `#parseFile` of a listed file. -/
def parseFile (s : WalDirectory) (id : RevokerId) (answers : DiskAnswers) (file : Nat × JsString) :
    WalDirectory × Except RevokerError (List CanonicalEvent) :=
  let opened := s.record id (.read file.2)
  match answers.readFault file.2, s.files.lookup file.2 with
  | some message, _ => (opened, .error (s.readFailed file.2 message))
  | none, none => (opened, .error (s.readFailed file.2 (s.notFound file.2)))
  | none, some content => (opened, .ok (TokenRevoker.parseFile file.1 content))

/-- The loop of `readSince` and of `scan`. A file that cannot be read ends the call. What was
read before is lost with it. -/
def parseFiles (id : RevokerId) (answers : DiskAnswers) :
    List (Nat × JsString) → WalDirectory → WalDirectory × Except RevokerError (List (Nat × List CanonicalEvent))
  | [], s => (s, .ok [])
  | file :: rest, s =>
    match s.parseFile id answers file with
    | (s, .error error) => (s, .error error)
    | (s, .ok events) =>
      match parseFiles id answers rest s with
      | (s, .error error) => (s, .error error)
      | (s, .ok parsed) => (s, .ok ((file.1, events) :: parsed))

/-- `#appendLine`. -/
def appendLine (s : WalDirectory) (id : RevokerId) (answers : DiskAnswers) (line : Line) :
    WalDirectory × Except RevokerError Unit :=
  if (s.logs id).initialized = false then (s, .error CanonicalWal.notInitialized)
  else
    let name := id.fileName (s.logs id).generation
    let opened := s.record id (.append name)
    match answers.appendFault with
    | some message => (opened, .error (s.appendFailed name message))
    | none =>
      let content := (s.files.lookup name).getD []
      ({ opened with files := s.files.insert name (content ++ encodeUtf8 (line.text ++ [newline])) }, .ok ())

/-- Every append but a tombstone's takes the next LSN first. -/
def takeLsn (s : WalDirectory) (id : RevokerId) : WalDirectory :=
  s.setLog id { s.logs id with nextLsn := (s.logs id).nextLsn + 1 }

def appendEntry (s : WalDirectory) (id : RevokerId) (answers : DiskAnswers) (item : JsString) :
    WalDirectory × Except RevokerError Nat :=
  let lsn := (s.logs id).nextLsn
  match (s.takeLsn id).appendLine id answers (.entry lsn item) with
  | (s, .error error) => (s, .error error)
  | (s, .ok ()) => (s, .ok lsn)

def appendTombstone (s : WalDirectory) (id : RevokerId) (answers : DiskAnswers) (lsn : Nat) (item : JsString) :
    WalDirectory × Except RevokerError Unit :=
  s.appendLine id answers (.tombstone lsn item)

def appendRotate (s : WalDirectory) (id : RevokerId) (answers : DiskAnswers) (generation : Nat) :
    WalDirectory × Except RevokerError Nat :=
  let lsn := (s.logs id).nextLsn
  match (s.takeLsn id).appendLine id answers (.rotate lsn generation) with
  | (s, .error error) => (s, .error error)
  | (s, .ok ()) => (s.setLog id { s.logs id with generation := generation }, .ok lsn)

def readSince (s : WalDirectory) (id : RevokerId) (answers : DiskAnswers) (fromLsn maxEvents : Nat) :
    WalDirectory × Except RevokerError (List CanonicalEvent) :=
  if (s.logs id).initialized = false then (s, .error CanonicalWal.notInitialized)
  else match parseFiles id answers (id.listGenerationFiles answers.readdir) s with
    | (s, .error error) => (s, .error error)
    | (s, .ok parsed) =>
      let found := (parsed.flatMap Prod.snd).filter fun event => fromLsn < event.lsn
      let sorted := KeyedLog.ordered CanonicalEvent.lsn found
      (s, .ok (if 0 < maxEvents && maxEvents < sorted.length then sorted.take maxEvents else sorted))

def scan (s : WalDirectory) (id : RevokerId) (answers : DiskAnswers) :
    WalDirectory × Except RevokerError CanonicalWalScan :=
  match parseFiles id answers (id.listGenerationFiles answers.readdir) s with
  | (s, .error error) => (s, .error error)
  | (s, .ok parsed) =>
    (s, .ok {
      maxLsn := maxLsn (parsed.flatMap Prod.snd)
      maxGeneration := parsed.foldl (fun top file =>
        file.2.foldl (fun top event =>
          match event with
          | .rotate _ generation => max top generation
          | _ => top) (max top file.1)) 0 })

/-- `unlinkSync` of a file with nothing above the floor, where it does not throw. -/
def unlink (s : WalDirectory) (id : RevokerId) (name : JsString) (fileMaxLsn : Nat) : WalDirectory :=
  { s.setLog id { s.logs id with deletedMaxLsn := max (s.logs id).deletedMaxLsn fileMaxLsn } with
    files := s.files.erase name }

/-- The loop of `truncateOldGenerations`, with the names deleted so far lost where a file
cannot be read. -/
def truncateFiles (id : RevokerId) (answers : DiskAnswers) (keepFromGeneration lsnFloor : Nat) :
    List (Nat × JsString) → WalDirectory → WalDirectory × Except RevokerError (List JsString)
  | [], s => (s, .ok [])
  | file :: rest, s =>
    if keepFromGeneration ≤ file.1 then truncateFiles id answers keepFromGeneration lsnFloor rest s
    else match s.parseFile id answers file with
      | (s, .error error) => (s, .error error)
      | (s, .ok events) =>
        if lsnFloor < maxLsn events then truncateFiles id answers keepFromGeneration lsnFloor rest s
        else
          let called := s.record id (.unlink file.2)
          if answers.unlinkFails file.2 then
            truncateFiles id answers keepFromGeneration lsnFloor rest called
          else
            match truncateFiles id answers keepFromGeneration lsnFloor rest
                (called.unlink id file.2 (maxLsn events)) with
            | (s, .error error) => (s, .error error)
            | (s, .ok deleted) => (s, .ok (file.2 :: deleted))

def truncateOldGenerations (s : WalDirectory) (id : RevokerId) (answers : DiskAnswers)
    (keepFromGeneration lsnFloor : Nat) : WalDirectory × Except RevokerError (List JsString) :=
  if (s.logs id).initialized = false then (s, .error CanonicalWal.notInitialized)
  else truncateFiles id answers keepFromGeneration lsnFloor (id.listGenerationFiles answers.readdir) s

/-- What a coordinator calls on its log. The arguments are whatever its caller passes. -/
inductive Operation where
  | construct
  | init (nextLsn generation deletedMaxLsn : Nat)
  | appendEntry (item : JsString)
  | appendTombstone (lsn : Nat) (item : JsString)
  | appendRotate (generation : Nat)
  | readSince (fromLsn maxEvents : Nat)
  | scan
  | truncateOldGenerations (keepFromGeneration lsnFloor : Nat)

def perform (s : WalDirectory) (id : RevokerId) (answers : DiskAnswers) : Operation → WalDirectory
  | .construct => s.construct id
  | .init nextLsn generation deletedMaxLsn => s.init id nextLsn generation deletedMaxLsn
  | .appendEntry item => (s.appendEntry id answers item).1
  | .appendTombstone lsn item => (s.appendTombstone id answers lsn item).1
  | .appendRotate generation => (s.appendRotate id answers generation).1
  | .readSince fromLsn maxEvents => (s.readSince id answers fromLsn maxEvents).1
  | .scan => (s.scan id answers).1
  | .truncateOldGenerations keepFromGeneration lsnFloor =>
    (s.truncateOldGenerations id answers keepFromGeneration lsnFloor).1

end WalDirectory

end TokenRevoker
