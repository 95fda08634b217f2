import EdgeMapper.Cypher.Statement
import EdgeMapper.FileTree
import EdgeMapper.Text.Upper
import EdgeMapper.Value.Entries
import EdgeMapper.Yaml.Document
import EdgeMapper.Yaml.Layout
/-!
# Settings

Settings come from three places, each of which overrules those before it: built-in values, a file,
and the environment. The file is a mapping; what it says about anything but the settings is passed
over, and its values may be of any type, for their text is what counts.
-/

namespace EdgeMapper

/-- A program that has settings. Its name is that of the directory in which they are looked for, and
begins the names of the variables that overrule them. -/
structure Program where
  name : String

namespace Program

def defaultPath (p : Program) : FilePath := ⟨["." ++ p.name, "config.yaml"]⟩

def variableName (p : Program) (setting : String) : String :=
  Text.upper p.name ++ "_" ++ setting

end Program

structure Settings where
  path : FilePath
  logLevel : String := "INFO"
  defaultAlias : String := "rel"
  deriving DecidableEq

inductive SettingsFault where
  | file (fault : FileFault)
  | text (fault : Yaml.Fault)
  | notAMapping
  /-- A key is not a text, or it names something that cannot be given a value. -/
  | badKey (key : Yaml.Atom)
  | badEntries (fault : EntryFault)
  /-- The settings would have nothing any more but what the file says. -/
  | replaced
  deriving DecidableEq

namespace Settings

def operations : List String := ["load", "save", "configure_logging"]

/-- What settings have besides, as all objects do: their class and the operations of the language. None of
it can be given a value either. -/
def builtins : List String :=
  ["__class__", "__dataclass_params__", "__delattr__", "__dir__", "__eq__", "__format__", "__ge__",
    "__getattribute__", "__getstate__", "__gt__", "__hash__", "__init__", "__init_subclass__", "__le__",
    "__lt__", "__ne__", "__new__", "__reduce__", "__reduce_ex__", "__repr__", "__setattr__", "__sizeof__",
    "__str__", "__subclasshook__", "__weakref__"]

/-- Texts about the settings. Other texts are taken for them, but nobody reads these. -/
def descriptions : List String := ["__doc__", "__module__"]

def holdings : String := "__dict__"

def maps : List String := ["__annotations__", "__dataclass_fields__", holdings]

def sequences : List String := ["__match_args__"]

def put (s : Settings) (name value : String) : Settings :=
  if name = "log_level" then { s with logLevel := value }
  else if name = "default_alias" then { s with defaultAlias := value }
  else s

def names : List String := ["log_level", "default_alias"]

/-- Takes over a map or a sequence about the settings, and nothing under any other name. -/
def applyInternal (s : Settings) (name : String) (outline : Thunk Value) :
    Except SettingsFault Settings :=
  if maps.contains name then
    match outline.get.toMap with
    | .ok _ => if name = holdings then .error .replaced else .ok s
    | .error fault => .error (.badEntries fault)
  else if sequences.contains name then
    if outline.get.elements?.isSome then .ok s else .error (.badEntries .noElements)
  else .ok s

def apply (s : Settings) (entry : Yaml.Entry) : Except SettingsFault Settings :=
  match entry.key with
  | .text name =>
    if operations.contains name || builtins.contains name then .error (.badKey entry.key)
    else if names.contains name || descriptions.contains name then
      match entry.text.get with
      | .ok value => .ok (s.put name value)
      | .error fault => .error (.text fault)
    else s.applyInternal name entry.outline
  | _ => .error (.badKey entry.key)

def applyAll (s : Settings) : List Yaml.Entry → Except SettingsFault Settings
  | [] => .ok s
  | entry :: rest => (s.apply entry).bind fun s => applyAll s rest

def applyDocument (s : Settings) : Yaml.Document → Except SettingsFault Settings
  | .nothing => .ok s
  | .mapping entries => s.applyAll entries
  | .other => .error .notAMapping

def applyText (s : Settings) (content : String) : Except SettingsFault Settings :=
  match Yaml.Document.read content with
  | .ok document => s.applyDocument document
  | .error fault => .error (.text fault)

abbrev Environment := OrderedMap String String

/-- The environment overrules: a log level unless it is empty, an alias even if it is. -/
def overrule (s : Settings) (p : Program) (env : Environment) : Settings :=
  let level := match env.get? (p.variableName "LOG_LEVEL") with
    | some text => if text = "" then s.logLevel else text
    | none => s.logLevel
  { s with
    logLevel := level
    defaultAlias := (env.get? (p.variableName "DEFAULT_ALIAS")).getD s.defaultAlias }

/-- Where the settings are: at the given path, else where the environment says unless that is empty,
else at the usual place. -/
def location (p : Program) (env : Environment) (path : Option FilePath) : FilePath :=
  match path with
  | some path => path
  | none =>
    match env.get? (p.variableName "CONFIG") with
    | some text => if text = "" then p.defaultPath else FilePath.ofText text
    | none => p.defaultPath

def load (p : Program) (tree : FileTree) (env : Environment) (path : Option FilePath) :
    Except SettingsFault Settings :=
  let initial : Settings := { path := location p env path }
  match tree.read initial.path with
  | .error fault => .error (.file fault)
  | .ok none => .ok (initial.overrule p env)
  | .ok (some content) => (initial.applyText content).map (·.overrule p env)

def text (s : Settings) : String :=
  Yaml.Layout.entry "default_alias" s.defaultAlias ++ Yaml.Layout.entry "log_level" s.logLevel

def save (s : Settings) (tree : FileTree) : Except FileFault FileTree :=
  (tree.ensureDirectory s.path.parent).bind fun tree => tree.write s.path s.text

def assign (s : Settings) (name value : String) : Settings :=
  if name = "config_path" then { s with path := FilePath.ofText value }
  else s.put name value

structure LogFormat where
  level : String
  format : String
  deriving DecidableEq

def logFormat (s : Settings) : LogFormat :=
  { level := Text.upper s.logLevel
    format := "%(asctime)s %(levelname)s %(name)s: %(message)s" }

def statementOptions (s : Settings) : Cypher.Options := { binding := s.defaultAlias }

end Settings

end EdgeMapper
