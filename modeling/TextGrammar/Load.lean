import TextGrammar.File.Path
import TextGrammar.File.Utf8
import TextGrammar.File.Workspace
import TextGrammar.Json.Reader
import TextGrammar.Yaml.Reader
import TextGrammar.Validation

/-!
# Loading a grammar file

The ending of a file's name tells whether it holds JSON or YAML. What it holds has to be a mapping,
to which the entry that tells the file is added. The file is read before its format is looked at.

## Main definitions

* `LoadFault` — why a file is not loaded.
* `loadGrammar` — the mapping of a file, or why there is none.
-/

namespace TextGrammar

/-- Why a file is not loaded. Two of the faults are not reported, but break off what is done: the
path, or a name in it, is too long to be looked up, or the file holds a text with half a
character. -/
inductive LoadFault where
  | missing
  | nameTooLong (path : Path)
  | directory (path : Path)
  | badBytes (fault : Utf8Fault)
  | unknownFormat
  | badYaml (fault : Yaml.Fault)
  | badJson (document : Text) (fault : JsonFault)
  | halfCharacter
  | noMapping

namespace LoadFault

def code : LoadFault → Text
  | missing => "E_FILE_NOT_FOUND".toList
  | nameTooLong _ | directory _ | badBytes _ => "E_FILE_READ".toList
  | unknownFormat => "E_UNSUPPORTED_FORMAT".toList
  | badYaml _ => "E_YAML_PARSE".toList
  | badJson .. | halfCharacter => "E_JSON_PARSE".toList
  | noMapping => "E_INVALID_TOP_LEVEL".toList

def message : LoadFault → Text
  | missing => "file does not exist".toList
  | nameTooLong path => "[Errno 36] File name too long: ".toList ++ path.text.quoted
  | directory path => "[Errno 21] Is a directory: ".toList ++ path.text.quoted
  | badBytes fault => fault.message
  | unknownFormat => "supported formats are .yaml/.yml and .json".toList
  | badYaml fault => fault.message
  | badJson document fault => fault.message document
  | halfCharacter => "'utf-8' codec can't encode characters: surrogates not allowed".toList
  | noMapping => "top-level document must be a mapping of symbol -> candidates".toList

def finding (path : Path) (fault : LoadFault) : Finding :=
  ⟨.loading, fault.code, fault.message, some path.text, none⟩

/-- Whether a fault breaks off what is done, and is not reported. -/
def isBreak : LoadFault → Bool
  | nameTooLong _ | halfCharacter => true
  | _ => false

/-- Why a file is not loaded that does not hold YAML. -/
def ofYaml : Yaml.Fault → LoadFault
  | .halfCharacter => halfCharacter
  | fault => badYaml fault

/-- Why a file is not loaded that does not hold JSON. -/
def ofJson (document : Text) : JsonFault → LoadFault
  | .halfCharacter => halfCharacter
  | fault => badJson document fault

end LoadFault

inductive FileFormat where
  | yaml
  | json
deriving DecidableEq

/-- The format that the ending of a path tells, in capital or small letters. -/
def FileFormat.ofPath? (path : Path) : Option FileFormat :=
  let ending := Text.lower path.ending
  if ending = ".yaml".toList ∨ ending = ".yml".toList then some .yaml
  else if ending = ".json".toList then some .json
  else none

def FileFormat.read (document : Text) : FileFormat → Except LoadFault Value
  | yaml => (readYaml document).mapError .ofYaml
  | json => (readJson document).mapError (.ofJson document)

def readFile (files : Files) (path : Path) : Except LoadFault Text :=
  match files path with
  | .nothing => .error .missing
  | .nameTooLong => .error (.nameTooLong path)
  | .found .directory => .error (.directory path)
  | .found (.file bytes) => ((decodeUtf8 bytes).mapError .badBytes).map unifyLineEnds

/-- The mapping that a path leads to, with the entry that tells the path. -/
def loadMapping (files : Files) (path : Path) : Except LoadFault (List (Value × Value)) := do
  let document ← readFile files path
  match FileFormat.ofPath? path with
  | none => throw .unknownFormat
  | some format =>
    match ← format.read document with
    | .mapping entries =>
      pure (Value.setEntry Value.same (.text fileKey) (.text path.text) entries)
    | _ => throw .noMapping

/-- The mapping of a grammar file, or the finding that tells why there is none. -/
def loadGrammar (files : Files) (path : Text) : Except Finding (List (Value × Value)) :=
  let path := Path.ofText path
  (loadMapping files path).mapError (LoadFault.finding path)

end TextGrammar
