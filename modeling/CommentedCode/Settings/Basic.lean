import CommentedCode.Classifier.Options
import CommentedCode.Text.Lowercase
/-!
# Settings

The settings of a run.  Each of the eight properties has a name in configuration files and a
field name in messages; a settings value gives every property a value.
-/
namespace CommentedCode

inductive Property
  | threshold
  | skipSequence
  | skipJavadocs
  | message
  | extensions
  | exclude
  | respectGitignore
  | jobs
deriving DecidableEq, Repr

namespace Property

def all : List Property :=
  [threshold, skipSequence, skipJavadocs, message, extensions, exclude, respectGitignore, jobs]

/-- The name in a configuration file. -/
def name : Property → String
  | threshold => "classificationThreshold"
  | skipSequence => "skipCheckSequence"
  | skipJavadocs => "skipJavaDocs"
  | message => "message"
  | extensions => "extensions"
  | exclude => "exclude"
  | respectGitignore => "respectGitignore"
  | jobs => "jobs"

/-- The name of the field that holds the property. -/
def field : Property → String
  | threshold => "classification_threshold"
  | skipSequence => "skip_check_sequence"
  | skipJavadocs => "skip_java_docs"
  | message => "message"
  | extensions => "extensions"
  | exclude => "exclude"
  | respectGitignore => "respect_gitignore"
  | jobs => "jobs"

def kind : Property → Kind
  | threshold => .float
  | skipSequence => .text
  | skipJavadocs => .bool
  | message => .text
  | extensions => .list .text
  | exclude => .list .text
  | respectGitignore => .bool
  | jobs => .int

def ofName? (cs : Text) : Option Property :=
  all.find? (·.name.toList = cs)

def ofField? (cs : Text) : Option Property :=
  all.find? (·.field.toList = cs)

end Property

structure Settings where
  threshold : Float
  skipSequence : Text
  skipJavadocs : Bool
  message : Text
  extensions : List Text
  exclude : List Text
  respectGitignore : Bool
  jobs : Int

namespace Settings

def defaultMessage : Text :=
  "Avoid leaving commented out code.".toList

def default : Settings where
  threshold := Options.defaultThreshold
  skipSequence := Options.defaultSkipSequence
  skipJavadocs := true
  message := defaultMessage
  extensions := [".java".toList]
  exclude := []
  respectGitignore := true
  jobs := 1

def texts (items : List Text) : Value :=
  .list (items.map .text)

def value (s : Settings) : Property → Value
  | .threshold => .float s.threshold
  | .skipSequence => .text s.skipSequence
  | .skipJavadocs => .bool s.skipJavadocs
  | .message => .text s.message
  | .extensions => texts s.extensions
  | .exclude => texts s.exclude
  | .respectGitignore => .bool s.respectGitignore
  | .jobs => .int s.jobs

/-- The settings as they would stand in a configuration file. -/
def properties (s : Settings) : List (Property × Value) :=
  Property.all.map fun p => (p, s.value p)

def options (s : Settings) : Options Float :=
  ⟨s.threshold, s.skipSequence, s.skipJavadocs⟩

/-- An extension with its dot, in lower case. -/
def normalExtension (e : Text) : Text :=
  Text.lower (if Text.startsWith e ['.'] then e else '.' :: e)

/-- The accepted extensions, each once, in order. -/
def normalExtensions (s : Settings) : List Text :=
  ((s.extensions.map normalExtension).mergeSort (fun a b => !Text.lt b a)).eraseDups

end Settings
end CommentedCode
