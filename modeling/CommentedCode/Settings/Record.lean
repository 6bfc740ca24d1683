import CommentedCode.Comment.Capture
import CommentedCode.Settings.Reading
/-!
# Records

Records read from a mapping of field names: every key must be a field, every field without a
default must be there, and each value is coerced to the kind of its field.
-/
namespace CommentedCode.Record

/-- Order of keys in messages: texts and numbers among themselves. -/
def keyBefore : Value → Value → Bool
  | .text a, .text b => Text.lt a b
  | .int a, .int b => a < b
  | _, _ => false

/-- The entries of a mapping whose keys are all among `fields`. -/
def entries (record : String) (fields : List String) :
    Value → Except SettingsError (List (Value × Value))
  | .mapping entries =>
    let extras := (entries.map (·.1)).filter fun
      | .text key => !fields.any (·.toList = key)
      | _ => true
    if extras.isEmpty then .ok entries
    else if Value.allWritable extras then
      .error (.unexpectedKeys (extras.mergeSort fun a b => !keyBefore b a))
    else .error (.unusable record Value.tooLong)
  | v => .error (.notMapping record v.kindName)

def lookup (entries : List (Value × Value)) (field : String) : Option Value :=
  entries.reverse.findSome? fun
    | (.text key, v) => if field.toList = key then some v else none
    | _ => none

/-- The coerced value of a field that has no default. -/
def required {α : Type} (coerced : Coercion.Path → Value → Except Coercion.Failure α)
    (entries : List (Value × Value)) (field : String) : Except SettingsError α :=
  match lookup entries field with
  | some v => (coerced [field.toList] v).mapError .coercion
  | none => .error (.missingField field)

def optional {α : Type} (coerced : Coercion.Path → Value → Except Coercion.Failure α)
    (entries : List (Value × Value)) (field : String) (byDefault : α) :
    Except SettingsError α :=
  if (lookup entries field).isSome then required coerced entries field else .ok byDefault

def settings (v : Value) : Except SettingsError Settings := do
  let given ← entries "CheckConfig" (Property.all.map (·.field)) v
  Settings.build fun p => lookup given p.field

def options (v : Value) : Except SettingsError (Options Float) := do
  let given ← entries "ClassifierConfig" ["threshold", "skip_sequence", "skip_javadocs"] v
  let threshold ← optional Coercion.float given "threshold" Options.defaultThreshold
  let skipSequence ← optional Coercion.text given "skip_sequence" Options.defaultSkipSequence
  let skipJavadocs ← optional Coercion.bool given "skip_javadocs" true
  (Options.checked ⟨threshold, skipSequence, skipJavadocs⟩).mapError fun e =>
    .unusable "ClassifierConfig" (e.message?.getD [])

def comment (v : Value) : Except SettingsError Comment := do
  let given ← entries "CommentBlock" ["text", "start_line", "end_line"] v
  let text ← required Coercion.text given "text"
  let startLine ← required Coercion.int given "start_line"
  let endLine ← required Coercion.int given "end_line"
  return ⟨text, startLine, endLine⟩

/-- A recorded verdict; what it says about the line that decided may be anything. -/
structure Outcome where
  isCode : Bool
  startLine : Int
  endLine : Int
  probability : Value
  lineIndex : Value

def outcome (v : Value) : Except SettingsError Outcome := do
  let given ← entries "ClassificationResult"
    ["is_code", "start_line", "end_line", "probability", "line_index"] v
  let isCode ← required Coercion.bool given "is_code"
  let startLine ← required Coercion.int given "start_line"
  let endLine ← required Coercion.int given "end_line"
  return ⟨isCode, startLine, endLine, (lookup given "probability").getD .null,
    (lookup given "line_index").getD .null⟩

end CommentedCode.Record
