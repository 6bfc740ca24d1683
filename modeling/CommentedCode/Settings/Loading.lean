import CommentedCode.Files.Lookup
import CommentedCode.Report.Notice
import CommentedCode.Settings.Reading
import CommentedCode.Text.Utf8
import CommentedCode.Yaml.Document
/-!
# Loading settings

Settings come from a named file, from the settings file of a directory, or are the defaults if
there is none.
-/
namespace CommentedCode

inductive LoadError
  | notFound (path : Path)
  | unreadable (path : Path) (fault : Fault)
  | undecodable (error : Utf8.Error)
  | yaml (error : Yaml.Error)
  | notMapping (path : Path)
  | settings (error : SettingsError)

namespace LoadError

/-- The wording of an error that the user can mend. -/
def userMessage? : LoadError → Option Text
  | notFound path => some ("Config file not found: ".toList ++ path.text)
  | unreadable path fault =>
    some ("Failed to read config ".toList ++ path.text ++ ": ".toList ++ fault.message path)
  | undecodable _ => none
  | yaml .malformed => some "Invalid YAML".toList
  | yaml _ => none
  | notMapping path =>
    some (path.text ++ ": config must be a mapping of property names to values".toList)
  | settings error => error.message?

end LoadError

namespace Settings

def fileName : String :=
  "cocheck.yaml"

/-- The settings that the bytes of a file describe; an empty document gives the defaults. -/
def ofBytes (path : Path) (content : Utf8.Bytes) : Except LoadError Settings := do
  let text ← (Source.ofBytes? content).mapError .undecodable
  match ← (Yaml.load text).mapError .yaml with
  | .null => (ofMapping []).mapError .settings
  | .mapping entries => (ofMapping entries).mapError .settings
  | _ => throw (.notMapping path)

def ofFile (fs : FileSystem) (path : Path) : Logged LoadError Settings := do
  Logged.tell [.loading path]
  match fs.read path with
  | .ok content => Logged.ofExcept (ofBytes path content)
  | .error fault => Logged.ofExcept (.error (.unreadable path fault))

/-- The settings for a run in the directory `root`; a file that is named must be there. -/
def load (fs : FileSystem) (root : Path) (named : Option Path) : Logged LoadError Settings :=
  match named with
  | some path =>
    let path := root.under path
    if fs.isFile path then ofFile fs path else Logged.ofExcept (.error (.notFound path))
  | none =>
    let path := root.under (Path.ofText fileName.toList)
    if fs.isFile path then ofFile fs path
    else do
      Logged.tell [.noSettingsFile fileName root]
      return default

end Settings
end CommentedCode
