import WebBaseline.Files.Path
import WebBaseline.Files.Error
import WebBaseline.Settings.Decoding
import WebBaseline.Settings.Encoding
import WebBaseline.Yaml.Decoding
import WebBaseline.Yaml.Printer

/-!
# Loading settings

Settings are the defaults, changed by the sections of a document, changed by
variables of the environment, and then validated.
-/

namespace WebBaseline

/-- Why settings cannot be loaded. -/
inductive SettingsError where
  | unreadable (e : ReadError)
  | malformed (e : Yaml.Error)
  | missingVersion
  | unsupportedVersion (found : UInt32)
  | invalid (e : Invalid)
deriving DecidableEq, Repr

/-- The wording of an error. -/
def SettingsError.message : SettingsError → String
  | unreadable e => "IO error: " ++ e.message
  | malformed e => "YAML parsing error: " ++ e.message
  | missingVersion =>
    "Missing \x27version\x27 field in configuration file. " ++
      "Add \x27version: 1\x27 to the top of your YAML file."
  | unsupportedVersion found =>
    "Unsupported configuration version " ++ toString found ++ ". Supported versions: " ++
      toString Settings.currentVersion
  | invalid e => e.message

namespace Settings

/-- The settings of a document: the sections that are not given are the standard ones. -/
def ofDocument (d : SettingsDocument) : Except SettingsError Settings :=
  match d.version with
  | none => .error .missingVersion
  | some version =>
    if version.toNat = currentVersion then
      .ok { catalog := d.catalog.getD {}, cache := d.cache.getD {}
            scan := d.scan.getD {}, workspace := d.workspace.getD {} }
    else .error (.unsupportedVersion version)

/-- Settings that are valid, or why they are not. -/
def checked (s : Settings) : Except SettingsError Settings :=
  match s.validate with
  | .ok () => .ok s
  | .error e => .error (.invalid e)

/-- Read settings from a text. -/
def parse (text : String) : Except SettingsError Settings :=
  match (Yaml.Document.ofText text).read SettingsDocument.read with
  | .ok d => ofDocument d
  | .error e => .error (.malformed e)

/-- The settings of a text, without regard to the environment. -/
def ofText (text : String) : Except SettingsError Settings := do checked (← parse text)

/-- The settings of a file under an environment.  What the file holds comes first. -/
def ofFile (content : Except ReadError String) (environment : String → Option String) :
    Except SettingsError Settings :=
  match content with
  | .error e => .error (.unreadable e)
  | .ok text => do checked ((← parse text).withEnvironment environment)

/-- The standard settings under an environment. -/
def ofEnvironment (environment : String → Option String) : Except SettingsError Settings :=
  checked (({} : Settings).withEnvironment environment)

/-- The text of settings. -/
def text (s : Settings) : String := (s.write Yaml.target).text

end Settings

/-! ### The file of the cache -/

/-- The user's directory for caches: the one that the environment names, if its path is
absolute, or the one in the home directory. -/
def userCacheDirectory? (environment : String → Option String) : Option String :=
  match (environment "XDG_CACHE_HOME").filter Path.isAbsolute with
  | some directory => some directory
  | none =>
    ((environment "HOME").filter fun home => !home.isEmpty).map (Path.join · ".cache")

/-- The file of the cache, if it is to outlive the run. -/
def CacheSettings.file? (s : CacheSettings) (environment : String → Option String) :
    Option String :=
  if !s.persistent then none
  else match s.path with
    | some path => some path
    | none =>
      (userCacheDirectory? environment).map fun directory =>
        Path.join (Path.join directory "baseline-scout") "catalog.sqlite"

end WebBaseline
