import CommentedCode.Yaml.Schema
import CommentedCode.Yaml.Token
/-!
# YAML nodes

The tree that the tokens of one document describe.  Every node carries the tag of its type; an
alias is replaced by the node that it names.
-/
namespace CommentedCode.Yaml

inductive Node
  | scalar (tag : Text) (text : Text)
  | sequence (tag : Text) (items : List Node)
  | mapping (tag : Text) (entries : List (Node × Node))
deriving Inhabited

namespace Node

def tag : Node → Text
  | scalar tag _ => tag
  | sequence tag _ => tag
  | mapping tag _ => tag

def null : Node :=
  scalar Schema.nullTag []

end Node

/-- The tokens still to be read and what names stand for. -/
structure Reader where
  tokens : List Placed
  anchors : List (Text × Node)
  handles : List (Text × Text)

namespace Reader

def next (r : Reader) : Token :=
  match r.tokens with
  | t :: _ => t.token
  | [] => .streamEnd

def skip (r : Reader) : Reader :=
  { r with tokens := r.tokens.tail }

def expect (r : Reader) (t : Token) : Except Error Reader :=
  if r.next = t then .ok r.skip else .error .malformed

def remember (r : Reader) (name : Option Text) (node : Node) : Reader :=
  match name with
  | some name => { r with anchors := (name, node) :: r.anchors }
  | none => r

/-- The properties in front of a node. -/
structure Properties where
  anchor : Option Text
  tag : Option Text

def fullTag (r : Reader) (handle : Option Text) (suffix : Text) : Except Error Text :=
  match handle with
  | none => .ok suffix
  | some handle =>
    match r.handles.find? (·.1 = handle) with
    | some (_, lead) => .ok (lead ++ suffix)
    | none => .error .malformed

/-- An anchor and a tag, in either order. -/
def properties (r : Reader) : Except Error (Properties × Reader) :=
  match r.next with
  | .anchor name =>
    match r.skip.next with
    | .tag handle suffix => do
      return (⟨some name, some (← r.fullTag handle suffix)⟩, r.skip.skip)
    | _ => .ok (⟨some name, none⟩, r.skip)
  | .tag handle suffix => do
    let tag ← r.fullTag handle suffix
    match r.skip.next with
    | .anchor name => return (⟨some name, some tag⟩, r.skip.skip)
    | _ => return (⟨none, some tag⟩, r.skip)
  | _ => .ok (⟨none, none⟩, r)

/-- The tag of a collection; the lone exclamation mark leaves the default. -/
def collectionTag (p : Properties) (byDefault : Text) : Text :=
  match p.tag with
  | some tag => if tag = ['!'] then byDefault else tag
  | none => byDefault

/-- The tag of a scalar: given, or found by its text if it is plain or marked as such. -/
def scalarTag (p : Properties) (text : Text) (isPlain : Bool) : Text :=
  match p.tag with
  | some tag => if tag = ['!'] then Schema.tagOf text else tag
  | none => if isPlain then Schema.tagOf text else Schema.textTag

def isAmong (r : Reader) (ts : List Token) : Bool :=
  ts.contains r.next

mutual

/-- A node; `inBlock` admits block collections, `indentless` a sequence that is not indented. -/
def node : Nat → Bool → Bool → Reader → Except Error (Node × Reader)
  | 0, _, _, _ => .error .malformed
  | bound + 1, inBlock, indentless, r =>
    match r.next with
    | .reuse name =>
      match r.anchors.find? (·.1 = name) with
      | some (_, found) => .ok (found, r.skip)
      | none => .error .malformed
    | _ => do
      let (p, r) ← r.properties
      let (found, r) ← content bound inBlock indentless p r
      return (found, r.remember p.anchor found)

def content : Nat → Bool → Bool → Properties → Reader → Except Error (Node × Reader)
  | 0, _, _, _, _ => .error .malformed
  | bound + 1, inBlock, indentless, p, r =>
    let sequenceTag := collectionTag p Schema.sequenceTag
    let mappingTag := collectionTag p Schema.mappingTag
    match r.next with
    | .blockEntry =>
      if indentless then do
        let (items, r) ← blockItems bound false r
        return (.sequence sequenceTag items, r)
      else empty p r
    | .scalar text isPlain => .ok (.scalar (scalarTag p text isPlain) text, r.skip)
    | .flowSequenceStart => do
      let (items, r) ← flowItems bound true r.skip
      return (.sequence sequenceTag items, r)
    | .flowMappingStart => do
      let (entries, r) ← flowEntries bound true r.skip
      return (.mapping mappingTag entries, r)
    | .blockSequenceStart =>
      if inBlock then do
        let (items, r) ← blockItems bound true r.skip
        return (.sequence sequenceTag items, r)
      else empty p r
    | .blockMappingStart =>
      if inBlock then do
        let (entries, r) ← blockEntries bound r.skip
        return (.mapping mappingTag entries, r)
      else empty p r
    | _ => empty p r

/-- Properties may stand alone; they belong to an empty scalar. -/
def empty (p : Properties) (r : Reader) : Except Error (Node × Reader) :=
  if p.anchor.isSome || p.tag.isSome then .ok (.scalar (scalarTag p [] p.tag.isNone) [], r)
  else .error .malformed

/-- A node, or the empty scalar if a token of `ends` is next. -/
def nodeUnless : Nat → List Token → Bool → Bool → Reader → Except Error (Node × Reader)
  | 0, _, _, _, _ => .error .malformed
  | bound + 1, ends, inBlock, indentless, r =>
    if r.isAmong ends then .ok (.null, r) else node bound inBlock indentless r

/-- Items behind dashes; `closed` tells whether a token ends them. -/
def blockItems : Nat → Bool → Reader → Except Error (List Node × Reader)
  | 0, _, _ => .error .malformed
  | bound + 1, closed, r =>
    if r.next = .blockEntry then do
      let ends : List Token :=
        if closed then [.blockEntry, .blockEnd] else [.blockEntry, .key, .value, .blockEnd]
      let (first, r) ← nodeUnless bound ends true false r.skip
      let (more, r) ← blockItems bound closed r
      return (first :: more, r)
    else if closed then do
      return ([], ← r.expect .blockEnd)
    else .ok ([], r)

def blockEntries : Nat → Reader → Except Error (List (Node × Node) × Reader)
  | 0, _ => .error .malformed
  | bound + 1, r =>
    if r.isAmong [.key, .value] then do
      let ends : List Token := [.key, .value, .blockEnd]
      let (key, r) ← if r.next = .key then nodeUnless bound ends true true r.skip
        else pure (.null, r)
      let (value, r) ← if r.next = .value then nodeUnless bound ends true true r.skip
        else pure (.null, r)
      let (more, r) ← blockEntries bound r
      return ((key, value) :: more, r)
    else do
      return ([], ← r.expect .blockEnd)

/-- A key and a value in a flow collection, behind the key indicator. -/
def flowPair : Nat → Token → Reader → Except Error ((Node × Node) × Reader)
  | 0, _, _ => .error .malformed
  | bound + 1, close, r => do
    let (key, r) ← nodeUnless bound [.value, .flowEntry, close] false false r
    let (value, r) ← if r.next = .value then nodeUnless bound [.flowEntry, close] false false r.skip
      else pure (.null, r)
    return ((key, value), r)

/-- Items between brackets; an item with a colon is a mapping with one entry. -/
def flowItems : Nat → Bool → Reader → Except Error (List Node × Reader)
  | 0, _, _ => .error .malformed
  | bound + 1, first, r =>
    if r.next = .flowSequenceEnd then .ok ([], r.skip)
    else do
      let r ← if first then pure r else r.expect .flowEntry
      if r.next = .flowSequenceEnd then return ([], r.skip)
      let (item, r) ← if r.next = .key then do
          let (pair, r) ← flowPair bound .flowSequenceEnd r.skip
          pure (Node.mapping Schema.mappingTag [pair], r)
        else node bound false false r
      let (more, r) ← flowItems bound false r
      return (item :: more, r)

/-- Entries between braces; an item without a colon is a key without a value. -/
def flowEntries : Nat → Bool → Reader → Except Error (List (Node × Node) × Reader)
  | 0, _, _ => .error .malformed
  | bound + 1, first, r =>
    if r.next = .flowMappingEnd then .ok ([], r.skip)
    else do
      let r ← if first then pure r else r.expect .flowEntry
      if r.next = .flowMappingEnd then return ([], r.skip)
      let (pair, r) ← if r.next = .key then flowPair bound .flowMappingEnd r.skip
        else if r.next = .value then flowPair bound .flowMappingEnd r
        else do
          let (key, r) ← node bound false false r
          pure ((key, .null), r)
      let (more, r) ← flowEntries bound false r
      return (pair :: more, r)

end

/-- The handles that are known without a directive. -/
def defaultHandles : List (Text × Text) :=
  [(['!'], ['!']), (['!', '!'], "tag:yaml.org,2002:".toList)]

/-- Directives in front of a document; `versioned` tells whether a version went before. -/
def directives : Nat → Bool → Reader → Except Error Reader
  | 0, _, _ => .error .malformed
  | bound + 1, versioned, r =>
    match r.next with
    | .version major _ =>
      if versioned || major != 1 then .error .malformed else directives bound true r.skip
    | .tagHandle handle lead =>
      if r.handles.any (·.1 = handle) then .error .malformed
      else directives bound versioned { r.skip with handles := (handle, lead) :: r.handles }
    | .reserved => directives bound versioned r.skip
    | _ => .ok { r with handles := r.handles ++ defaultHandles }

/-- The end of the only document: the end of the stream, or an end marker on a line of its
own. -/
def finish (r : Reader) : Except Error Unit :=
  match r.tokens with
  | [⟨.streamEnd, _⟩] => .ok ()
  | [⟨.documentEnd, _⟩, ⟨.streamEnd, _⟩] => .ok ()
  | _ => .error .malformed

/-- The node of a stream that holds at most one document. -/
def document (tokens : List Placed) : Except Error (Option Node) := do
  let bound := 4 * tokens.length + 4
  let r : Reader := ⟨tokens, [], []⟩
  match r.next with
  | .streamEnd => return none
  | .version _ _ | .tagHandle _ _ | .reserved | .documentStart =>
    let r ← directives bound false r
    let r ← r.expect .documentStart
    let (found, r) ← match r.next with
      | .version _ _ | .tagHandle _ _ | .reserved | .documentStart | .documentEnd | .streamEnd =>
        pure (Node.null, r)
      | _ => node bound true false r
    r.finish
    return some found
  | _ =>
    let (found, r) ← node bound true false { r with handles := defaultHandles }
    r.finish
    return some found

end Reader
end CommentedCode.Yaml
