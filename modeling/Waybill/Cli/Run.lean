/-
  Doing what a command line asks for.

  The settings are read and the store is opened before anything else.  Files that a command may
  need are read before it starts, and what it tells is a JSON value.

  * `CommandError` is why a command fails, `CommandError.message` what is told of it;
  * `generatePack`, `renderPackTo`, `importFile` and the like are the commands;
  * `run` does what an invocation asks for.
-/
import Waybill.Catalog.Reading
import Waybill.Cli.Command
import Waybill.Cli.Host
import Waybill.Delivery.Queue
import Waybill.Generation.Generate
import Waybill.Settings

namespace Waybill.Cli

open Waybill.Catalog Waybill.Delivery Waybill.Files Waybill.Generation Waybill.History

/-! ## Errors -/

/-- Why a command fails. -/
inductive CommandError where
  | settings (error : SettingsError)
  | database (path : String)
  | unknownType (type : String)
  | unreadablePayloads (path : String)
  | malformedPayloads
  | unmadeDirectory (path : String)
  | unwrittenFile (path : String)
  | catalog (error : CatalogError)
  | pack (error : PackError)
  | history (error : HistoryError)
  | store (error : StoreError)
  deriving Inhabited

/-- The text of an error. -/
def CommandError.message : CommandError → String
  | .settings e => e.message
  | .database path => "Failed to open database " ++ Text.quotedPath path
  | .unknownType type => "no pack prints document type " ++ Text.quoted type
  | .unreadablePayloads path => "Failed to read payload file " ++ Text.quotedPath path
  | .malformedPayloads => "invalid payload file"
  | .unmadeDirectory path => "Failed to create " ++ Text.quotedPath path
  | .unwrittenFile path => "Failed to write " ++ Text.quotedPath path
  | .catalog e => e.message
  | .pack e => e.message
  | .history e => e.message
  | .store e => e.message

/-- A command: it tells a value, or fails. -/
abbrev Errand (α : Type) : Type 1 := ExceptT CommandError (StateT Desk (Program Call)) α

/-- Something that may fail for a reason of its own. -/
def attempt {ε α : Type} (cause : ε → CommandError) (work : Shell (Except ε α)) : Errand α :=
  ExceptT.mk (do return (← work).mapError cause)

/-- A call that cannot fail. -/
def told {α : Type} (call : Call α) : Errand α :=
  ExceptT.lift (ask call)

/-! ## Files -/

/-- Reads files ahead: the content of each that there is. -/
def readAhead (paths : List String) : Errand (String → Option ByteArray) := do
  let found ← paths.mapM fun path => do return (path, ← told (.read path))
  return fun path => (found.lookup path).join

/-- Reads templates ahead: what each regular file gives. -/
def readTemplates (paths : List String) :
    Errand (String → Option (Except String ByteArray)) := do
  let found ← paths.mapM fun path => do return (path, ← told (.readRegular path))
  return fun path => (found.lookup path).join

/-- Writes a file into a directory that is made first; gives its path. -/
def writeFile (directory name : String) (content : ByteArray) : Errand String := do
  if !(← told (.makeDirs directory)) then throw (.unmadeDirectory directory)
  let path := joined directory name
  if !(← told (.write path content)) then throw (.unwrittenFile path)
  return path

/-- The payloads in a file. -/
def payloadsOf (path : String) : Errand Payload.Provider := do
  match (← told (.read path)).bind Text.decode? with
  | none => throw (.unreadablePayloads path)
  | some text =>
    match Payload.File.ofText? text with
    | none => throw .malformedPayloads
    | some file => return file.provider

/-! ## Packs -/

/-- The paths where templates may be of documents that have none of their own. -/
def templatePaths (directories : List String) (s : Store) : List String :=
  s.packs.rows.flatMap fun p => (s.enabledDocuments p.id none).flatMap fun d =>
    match d.template, d.templateName? with
    | none, some name => directories.map fun directory => joined directory name
    | _, _ => []

/-- What was read to generate a pack: its payloads, and the files where its templates may be. -/
structure Material where
  provider : Payload.Provider
  files : String → Option (Except String ByteArray)

/-- What generation goes by. -/
def Material.setting (m : Material) (settings : EngineSettings) : Generation.Setting where
  format := .xlsx
  templateDirs := settings.templateDirs
  templateFile := m.files
  archive := Archive.zip
  provider := m.provider
  timeout := settings.timeout * 1000
  fallback := settings.fallback

/-- The request of a choice, with what is read for it. -/
def prepared (settings : EngineSettings) (choice : Choice) : Errand (Request × Material) := do
  let request ← liftM (choice.request.mapError .unknownType : Except CommandError Request)
  let provider ← payloadsOf choice.payloads
  let files ← readTemplates (templatePaths settings.templateDirs (← get).store)
  return (request, ⟨provider, files⟩)

/-- Generates a pack; tells of the artifact, or of the file with its spreadsheets. -/
def generatePack (s : Settings) (choice : Choice) (directory : String) : Errand Json := do
  let (request, material) ← prepared s.engine choice
  match ← attempt .pack (work s.drive (generateOrRender (material.setting s.engine) request)) with
  | .pdf artifact => return artifact.toJson
  | .xlsx b =>
    let path ← writeFile directory b.name b.bytes
    return .record [("fallback", .text "xlsx"), ("file", .text path),
      ("content_type", .text b.contentType)]

/-- Renders the spreadsheets of a pack into a directory, in one file or one by one. -/
def renderPackTo (s : Settings) (choice : Choice) (directory : String) (bundled : Bool) :
    Errand Json := do
  let (request, material) ← prepared s.engine choice
  let setting := material.setting s.engine
  let rendered ← attempt .pack (work s.drive (renderPack setting request))
  let paths ←
    if bundled then do
      let now ← told .now
      let b ← liftM ((bundle setting.archive (Text.trim request.pack) now rendered).mapError
        CommandError.pack)
      pure [← writeFile directory b.name b.bytes]
    else rendered.mapM fun r => writeFile directory r.name r.bytes
  return .record [("files", .list (paths.map .text))]

/-! ## Catalogs -/

/-- Imports the catalog in a file; templates are seen from its directory. -/
def importFile (path : String) (user : Option String) : Errand Json := do
  let reading (files : String → Option ByteArray) : ReadFile := fun path =>
    match files path with
    | some content => .ok content
    | none => .error "no such file"
  let file ← readAhead [path]
  let catalog ← liftM ((Catalog.ofFile (reading file) path).mapError CommandError.catalog)
  let directory := (directory? path).getD "."
  let templates := catalog.packs.flatMap fun p => p.documents.filterMap fun d =>
    d.template.map (joined directory)
  let files ← readAhead templates
  let setting : Catalog.Setting := ⟨reading files, directory, ⟨user, ← told .now⟩⟩
  return (← attempt .catalog (change (importCatalog setting catalog).run)).toJson

/-! ## The queue and the history -/

/-- Runs the queue. -/
def runQueue (s : Settings) (limit : Option Nat) (maxAttempts : Option UInt32)
    (timeout : Option Nat) (includeFailed : Bool) : Errand Json := do
  let options : Options := {
    limit := some (limit.getD s.sync.limit)
    includeFailed
    maxAttempts := some (maxAttempts.getD s.sync.maxAttempts)
    timeout := some (timeout.getD s.sync.timeout * 1000)
    workDir := s.sync.workDir }
  return (← attempt .store (work s.drive (process options))).toJson

/-- What is told of a new version. -/
def shortVersion (v : Version) : List (String × Json) :=
  [("id", .int v.id), ("version", .int v.number)]

/-- What is told of a version in a list. -/
def listedVersion (v : Version) : Json :=
  .record (shortVersion v ++ [
    ("change_type", .text v.change.name),
    ("change_note", .text v.note),
    ("created_by", .ofOption .text v.createdBy),
    ("created_at", .text v.createdAt.zulu),
    ("template", .ofOption (fun t => .text t.name) v.template),
    ("mappings", .int v.rules.length)])

/-- Records a version of a document. -/
def takeSnapshot (document : Id) (note : String) (user : Option String) : Errand Json := do
  let v ← attempt .history (act (saveSnapshot document ⟨user, ← told .now⟩ .save note))
  return .record (shortVersion v)

/-- Makes a version live again. -/
def restoreVersion (version : Id) (note : String) (user : Option String) : Errand Json := do
  let v ← attempt .history (act (restore version ⟨user, ← told .now⟩ note))
  return .record (shortVersion v ++ [("change_type", .text v.change.name)])

/-- Lists the versions of a document. -/
def listVersions (document : Id) : Errand Json := do
  let found ← liftM (((← get).store.versionsOf document).mapError CommandError.store)
  return .list (found.map listedVersion)

/-! ## Invocations -/

/-- Does a command with the store open. -/
def Command.run (s : Settings) : Command → Errand Json
  | .importCatalog catalog user => importFile catalog user
  | .generate choice directory => generatePack s choice directory
  | .renderXlsx choice directory bundled => renderPackTo s choice directory bundled
  | .processQueue limit maxAttempts timeout includeFailed =>
    runQueue s limit maxAttempts timeout includeFailed
  | .snapshot document note user => takeSnapshot document note user
  | .restore version note user => restoreVersion version note user
  | .versions document => listVersions document

/-- The settings in a file, with what the environment has of the credentials. -/
def settingsOf (path : String) : Program Call (Except SettingsError Settings) := do
  let file ← Program.ask (.read path)
  let said ← Settings.credentials.mapM fun name => do
    return (name, ← Program.ask (.environment name))
  return Settings.load (fun _ => file) (fun name => (said.lookup name).join) path

/-- Does what an invocation asks for. -/
def Invocation.run (i : Invocation) : Program Call (Except CommandError Json) := do
  match ← settingsOf i.settings with
  | .error e => return .error (.settings e)
  | .ok s =>
    match ← openStore s.databasePath with
    | none => return .error (.database s.databasePath)
    | some desk => return (← (i.command.run s).run.run desk).1

end Waybill.Cli
