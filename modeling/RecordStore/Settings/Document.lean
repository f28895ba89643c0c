import RecordStore.Settings.Connection
import RecordStore.Settings.Engine
import RecordStore.Toml.Document
import RecordStore.Toml.Written
/-!
# Settings in files — settings as TOML documents

Settings are written one line each, in a fixed order. They are read back
from any document: names that no setting has are passed over, and a setting
that is missing has its default. A group of settings may also be given as
an array of their values in order. Settings that were read are validated.
-/

namespace RecordStore

namespace Settings

open Toml

/-- Reads a setting from the value it is given, or gives its default. -/
def read {α : Type} (convert : Node → Option α) (default : α) : Option Node → Option α
  | none => some default
  | some node => convert node

/-- Reads the setting of a name from a table. -/
def readEntry {α : Type} (entries : Entries) (name : String) (convert : Node → Option α)
    (default : α) : Option α :=
  read convert default (Directory.lookup name entries)

/-- The text in a file, if there is a file and it holds a text. -/
def fileText (content : Option ByteArray) : Except FileFault String :=
  match content with
  | none => .error .missing
  | some bytes =>
    match String.fromUTF8? bytes with
    | some text => .ok text
    | none => .error .notUtf8

end Settings

namespace EngineSettings

open Toml Settings

/-- The settings that a table stands for. -/
def ofEntries? (entries : Entries) : Option EngineSettings := do
  let defaults : EngineSettings := {}
  let defaultRegionName ←
    readEntry entries "default_region_name" Node.asText? defaults.defaultRegionName
  let defaultRegionSize ←
    readEntry entries "default_region_size" Node.asNat? defaults.defaultRegionSize
  let minRegionSize ← readEntry entries "min_region_size" Node.asNat? defaults.minRegionSize
  let maxFieldCount ← readEntry entries "max_field_count" Node.asNat? defaults.maxFieldCount
  return { defaultRegionName, defaultRegionSize, minRegionSize, maxFieldCount }

/-- The settings in a document. -/
def ofToml (text : String) : Except Error EngineSettings :=
  match (parse? text).bind ofEntries? with
  | none => .error (.invalidConfig .unreadable)
  | some s => s.validate.map fun _ => s

/-- The settings in a file. -/
def ofFile (content : Option ByteArray) : Except Error EngineSettings :=
  match fileText content with
  | .error fault => .error (.io fault)
  | .ok text => ofToml text

/-- The lines of the settings. -/
def toLines (s : EngineSettings) : List (String × Plain) :=
  [("default_region_name", .text s.defaultRegionName),
    ("default_region_size", .natural s.defaultRegionSize),
    ("min_region_size", .natural s.minRegionSize),
    ("max_field_count", .natural s.maxFieldCount)]

/-- The settings as a document. -/
def toToml (s : EngineSettings) : Except Error String :=
  match writtenPairs? s.toLines with
  | some text => .ok (String.ofList text)
  | none => .error (.invalidConfig .unwritable)

end EngineSettings

namespace MapperSettings

open Toml Settings

/-- The settings that a value stands for: a table, or an array of the settings in order. A
date counts as a table without any of them. -/
def ofNode? : Node → Option MapperSettings
  | .table _ entries =>
    (readEntry entries "fingerprint" Node.asBoolean? false).map fun b => ⟨b⟩
  | .array items => (read Node.asBoolean? false items.head?).map fun b => ⟨b⟩
  | .dateTime => some {}
  | _ => none

/-- The lines of the settings. -/
def toLines (s : MapperSettings) : List (String × Plain) :=
  [("fingerprint", .boolean s.fingerprint)]

end MapperSettings

namespace ConnectionSettings

open Toml Settings

/-- The settings that a table stands for. -/
def ofEntries? (entries : Entries) : Option ConnectionSettings := do
  let name ← readEntry entries "name" (fun node => node.asText?.map some) none
  let size ← readEntry entries "size" Node.asNat? 0
  let isLocal ← readEntry entries "local" Node.asBoolean? false
  let mapper ← readEntry entries "mapper" MapperSettings.ofNode? {}
  return { name, size, isLocal, mapper }

/-- The settings in a document. -/
def ofToml (text : String) : Except ClientError ConnectionSettings :=
  match (parse? text).bind ofEntries? with
  | none => .error (.invalidConfig .unreadable)
  | some s => s.validate.map fun _ => s

/-- The settings in a file. -/
def ofFile (content : Option ByteArray) : Except ClientError ConnectionSettings :=
  match fileText content with
  | .error fault => .error (.io fault)
  | .ok text => ofToml text

/-- The lines of the settings that stand before the first header. -/
def toLines (s : ConnectionSettings) : List (String × Plain) :=
  (s.name.map fun name => ("name", Plain.text name)).toList ++
    [("size", .natural s.size), ("local", .boolean s.isLocal)]

/-- The settings as a document. -/
def toToml (s : ConnectionSettings) : Except ClientError String :=
  match writtenPairs? s.toLines, writtenPairs? s.mapper.toLines with
  | some own, some mapper => .ok (String.ofList (own ++ writtenHeader "mapper" ++ mapper))
  | _, _ => .error (.invalidConfig .unwritable)

end ConnectionSettings

end RecordStore
