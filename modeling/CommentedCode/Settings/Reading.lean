import CommentedCode.Settings.Basic
/-!
# Reading settings

Settings are read from values for some of the properties; the others take their defaults.  All
values are coerced first, in the order of the properties, and checked afterwards.
-/
namespace CommentedCode

inductive SettingsError
  | coercion (failure : Coercion.Failure)
  | notMapping (record got : String)
  | unexpectedKeys (keys : List Value)
  | missingField (field : String)
  | unusable (record : String) (reason : Text)
  | unwritable (reason : Text)
  | unknownProperty (key : Text)
  | thresholdOutOfRange (threshold : Float)
  | emptySkipSequence
  | tooFewJobs (jobs : Int)
  | noExtensions

namespace SettingsError

def propertyNames : Text :=
  Text.join [',', ' ']
    ((Property.all.map (·.name.toList)).mergeSort (fun a b => !Text.lt b a))

def located (path : Coercion.Path) (message : Text) : Text :=
  if path = [] then message else Text.join ['.'] path ++ [':', ' '] ++ message

/-- The wording of an error that the user can mend. -/
def message? : SettingsError → Option Text
  | coercion (.mistyped path expected got) =>
    some (located path ("expected " ++ expected ++ ", got " ++ got).toList)
  | coercion .overflow => none
  | notMapping record got => some ("expected mapping for " ++ record ++ ", got " ++ got).toList
  | unexpectedKeys keys => some ("unexpected keys: ".toList ++ (Value.list keys).literal)
  | missingField field => some (located [field.toList] "required field missing".toList)
  | unusable record reason => some (("failed to build " ++ record ++ ": ").toList ++ reason)
  | unwritable _ => none
  | unknownProperty key =>
    some ("Unknown property '".toList ++ key ++ "' (expected one of: ".toList ++ propertyNames
      ++ [')'])
  | thresholdOutOfRange threshold =>
    some ("classificationThreshold: must be in (0, 1], got ".toList ++ floatText threshold)
  | emptySkipSequence => some "skipCheckSequence: must not be empty".toList
  | tooFewJobs jobs => some ("jobs: must be >= 1, got ".toList ++ intText jobs)
  | noExtensions => some "extensions: at least one extension is required".toList

/-- Where in the data the error lies, if it lies in one place. -/
def path? : SettingsError → Option Coercion.Path
  | coercion (.mistyped path _ _) => some path
  | notMapping _ _ => some []
  | unexpectedKeys _ => some []
  | missingField field => some [field.toList]
  | unusable _ _ => some []
  | _ => none

end SettingsError

/-- The value that a list of assignments gives a property: the last one counts. -/
def assigned (given : List (Property × Value)) (p : Property) : Option Value :=
  (given.reverse.find? (·.1 = p)).map (·.2)

namespace Settings

/-- The value for one property, coerced, or the default. -/
def readProperty {α : Type} (coerced : Coercion.Path → Value → Except Coercion.Failure α)
    (given : Property → Option Value) (p : Property) (byDefault : α) :
    Except SettingsError α :=
  match given p with
  | some v => (coerced [p.field.toList] v).mapError .coercion
  | none => .ok byDefault

def build (given : Property → Option Value) : Except SettingsError Settings := do
  let threshold ← readProperty Coercion.float given .threshold default.threshold
  let skipSequence ← readProperty Coercion.text given .skipSequence default.skipSequence
  let skipJavadocs ← readProperty Coercion.bool given .skipJavadocs default.skipJavadocs
  let message ← readProperty Coercion.text given .message default.message
  let extensions ←
    readProperty (Coercion.list Coercion.text) given .extensions default.extensions
  let exclude ← readProperty (Coercion.list Coercion.text) given .exclude default.exclude
  let respectGitignore ←
    readProperty Coercion.bool given .respectGitignore default.respectGitignore
  let jobs ← readProperty Coercion.int given .jobs default.jobs
  return ⟨threshold, skipSequence, skipJavadocs, message, extensions, exclude, respectGitignore,
    jobs⟩

/-- The error about a number of jobs, which names it. -/
def jobsError (jobs : Int) : SettingsError :=
  if (Value.int jobs).isWritable then .tooFewJobs jobs else .unwritable Value.tooLong

/-- What a run relies on. -/
def check (s : Settings) : Except SettingsError Settings :=
  if !Options.inRange s.threshold then .error (.thresholdOutOfRange s.threshold)
  else if s.skipSequence = [] then .error .emptySkipSequence
  else if s.jobs < 1 then .error (jobsError s.jobs)
  else if s.extensions = [] then .error .noExtensions
  else .ok s

/-- The property that a key names. -/
def recognise (key : Value) : Except SettingsError Property :=
  if key.isWritable then
    match Property.ofName? key.display with
    | none => .error (.unknownProperty key.display)
    | some p => .ok p
  else .error (.unwritable Value.tooLong)

/-- Recognises the keys of a configuration file. -/
def assignments : List (Value × Value) → Except SettingsError (List (Property × Value))
  | [] => .ok []
  | (key, value) :: rest => do
    let p ← recognise key
    let later ← assignments rest
    return (p, value) :: later

def ofMapping (entries : List (Value × Value)) : Except SettingsError Settings := do
  let given ← assignments entries
  let s ← build (assigned given)
  s.check

/-- The overrides that change something: null stands for no override. -/
def changes (overrides : List (Text × Value)) : List (Text × Value) :=
  overrides.filter fun (_, v) => match v with
    | .null => false
    | _ => true

/-- Keys in ascending order. -/
def sortedKeys (keys : List Text) : List Value :=
  (keys.mergeSort (fun a b => !Text.lt b a)).map .text

/-- Settings with overrides by field name, read and checked as a whole. -/
def override (s : Settings) (overrides : List (Text × Value)) :
    Except SettingsError Settings := do
  let changed := changes overrides
  if changed.isEmpty then return s
  let extras := (changed.map (·.1)).filter fun key => (Property.ofField? key).isNone
  if !extras.isEmpty then throw (.unexpectedKeys (sortedKeys extras))
  let given := changed.filterMap fun (key, v) => (Property.ofField? key).map (·, v)
  let built ← build fun p => (assigned given p).or (some (s.value p))
  built.check

end Settings
end CommentedCode
