import UiSuite.Yaml.Token

/-! YAML documents as trees of nodes.

A tree is read from tokens. Where a node may be left out, as after a key without a
value, an empty plain scalar stands for it. A tag is written with a handle, whose
meaning the document may set. A text holds one document at most. -/
namespace UiSuite.Yaml

/-- A node; anchors and aliases are named by `α`. -/
inductive Node (α : Type) where
  | scalar (anchor : Option α) (tag : Option String) (isPlain : Bool) (text : String)
  | reference (name : α)
  | sequence (anchor : Option α) (tag : Option String) (items : List (Node α))
  | mapping (anchor : Option α) (tag : Option String) (entries : List (Node α × Node α))

namespace Node

/-- What stands for a node that is left out. -/
def empty : Node String := scalar none none true ""

/-! ### Properties -/

/-- The handles every document has. -/
def standardHandles : List (String × String) :=
  [("!", "!"), ("!!", "tag:yaml.org,2002:")]

/-- The whole tag of a handle and a suffix. -/
def wholeTag (handles : List (String × String)) (handle suffix : String) : Option String :=
  if handle = "" then some suffix
  else (handles.find? (·.1 == handle)).map fun h => h.2 ++ suffix

/-- The anchor and the tag before a node, in either order. -/
def properties (handles : List (String × String)) :
    List Token → Option (Option String × Option String × List Token)
  | .anchor a :: .tag h s :: ts => (wholeTag handles h s).map fun t => (some a, some t, ts)
  | .tag h s :: .anchor a :: ts => (wholeTag handles h s).map fun t => (some a, some t, ts)
  | .anchor a :: ts => some (some a, none, ts)
  | .tag h s :: ts => (wholeTag handles h s).map fun t => (none, some t, ts)
  | ts => some (none, none, ts)

/-! ### Nodes from tokens -/

/-- Whether a value of a block mapping is left out before this token. -/
def endsEntry : Token → Bool
  | .key | .value | .blockEnd => true
  | _ => false

mutual
/-- A node; `block` admits block collections, `indentless` a sequence in the column of its
mapping. -/
def node (handles : List (String × String)) :
    Nat → Bool → Bool → List Token → Option (Node String × List Token)
  | 0, _, _, _ => none
  | _ + 1, _, _, .reference name :: ts => some (.reference name, ts)
  | n + 1, block, indentless, ts => do
    let (anchor, tag, ts) ← properties handles ts
    match ts with
    | .scalar isPlain text :: ts => return (.scalar anchor tag isPlain text, ts)
    | .flowSequence :: ts =>
      let (items, ts) ← flowItems handles n true [] ts
      return (.sequence anchor tag items, ts)
    | .flowMapping :: ts =>
      let (entries, ts) ← flowEntries handles n true [] ts
      return (.mapping anchor tag entries, ts)
    | t :: rest =>
      if indentless && t == .blockEntry then
        let (items, ts) ← plainItems handles n [] ts
        return (.sequence anchor tag items, ts)
      else if block && t == .blockSequence then
        let (items, ts) ← blockItems handles n [] rest
        return (.sequence anchor tag items, ts)
      else if block && t == .blockMapping then
        let (entries, ts) ← blockEntries handles n [] rest
        return (.mapping anchor tag entries, ts)
      else if anchor.isSome || tag.isSome then return (.scalar anchor tag true "", ts)
      else none
    | [] => none

/-- The items of a block sequence, last one first, up to its end. -/
def blockItems (handles : List (String × String)) :
    Nat → List (Node String) → List Token → Option (List (Node String) × List Token)
  | n + 1, acc, .blockEntry :: t :: ts =>
    if t == .blockEntry || t == .blockEnd then blockItems handles n (empty :: acc) (t :: ts)
    else do
      let (item, ts) ← node handles n true false (t :: ts)
      blockItems handles n (item :: acc) ts
  | _ + 1, acc, .blockEnd :: ts => some (acc.reverse, ts)
  | _, _, _ => none

/-- The items of a sequence in the column of its mapping. -/
def plainItems (handles : List (String × String)) :
    Nat → List (Node String) → List Token → Option (List (Node String) × List Token)
  | n + 1, acc, .blockEntry :: t :: ts =>
    if t == .blockEntry || endsEntry t then plainItems handles n (empty :: acc) (t :: ts)
    else do
      let (item, ts) ← node handles n true false (t :: ts)
      plainItems handles n (item :: acc) ts
  | _ + 1, acc, ts => some (acc.reverse, ts)
  | 0, _, _ => none

/-- What stands after a mark in a block mapping, if it is not left out. -/
def entryPart (handles : List (String × String)) :
    Nat → List Token → Option (Node String × List Token)
  | n + 1, t :: ts =>
    if endsEntry t then some (empty, t :: ts) else node handles n true true (t :: ts)
  | _, _ => none

/-- The entries of a block mapping up to its end. -/
def blockEntries (handles : List (String × String)) :
    Nat → List (Node String × Node String) → List Token →
      Option (List (Node String × Node String) × List Token)
  | n + 1, acc, .key :: ts => do
    let (k, ts) ← entryPart handles n ts
    match ts with
    | .value :: ts =>
      let (v, ts) ← entryPart handles n ts
      blockEntries handles n ((k, v) :: acc) ts
    | ts => blockEntries handles n ((k, empty) :: acc) ts
  | _ + 1, acc, .blockEnd :: ts => some (acc.reverse, ts)
  | _, _, _ => none

/-- A node in a flow collection, if it is not left out before one of these tokens. -/
def flowPart (handles : List (String × String)) (ends : List Token) :
    Nat → List Token → Option (Node String × List Token)
  | n + 1, t :: ts =>
    if ends.contains t then some (empty, t :: ts) else node handles n false false (t :: ts)
  | _, _ => none

/-- A single entry written as an item; a token in place of its key is passed over. -/
def singleEntry (handles : List (String × String)) :
    Nat → List Token → Option (Node String × List Token)
  | n + 1, t :: ts => do
    let (k, ts) ←
      if [.value, .flowEntry, .flowSequenceEnd].contains t then some (empty, ts)
      else node handles n false false (t :: ts)
    match ts with
    | .value :: ts =>
      let (v, ts) ← flowPart handles [.flowEntry, .flowSequenceEnd] n ts
      return (.mapping none none [(k, v)], ts)
    | ts => return (.mapping none none [(k, empty)], ts)
  | _, _ => none

/-- The items of a flow sequence up to its end; all but the first follow a comma. -/
def flowItems (handles : List (String × String)) :
    Nat → Bool → List (Node String) → List Token → Option (List (Node String) × List Token)
  | _ + 1, _, acc, .flowSequenceEnd :: ts => some (acc.reverse, ts)
  | n + 1, isFirst, acc, ts =>
    let next := if isFirst then some ts else match ts with
      | .flowEntry :: ts => some ts
      | _ => none
    match next with
    | some (.flowSequenceEnd :: ts) => some (acc.reverse, ts)
    | some (.key :: ts) => do
      let (item, ts) ← singleEntry handles n ts
      flowItems handles n false (item :: acc) ts
    | some ts => do
      let (item, ts) ← node handles n false false ts
      flowItems handles n false (item :: acc) ts
    | none => none
  | 0, _, _, _ => none

/-- The entries of a flow mapping up to its end; all but the first follow a comma. -/
def flowEntries (handles : List (String × String)) :
    Nat → Bool → List (Node String × Node String) → List Token →
      Option (List (Node String × Node String) × List Token)
  | _ + 1, _, acc, .flowMappingEnd :: ts => some (acc.reverse, ts)
  | n + 1, isFirst, acc, ts =>
    let next := if isFirst then some ts else match ts with
      | .flowEntry :: ts => some ts
      | _ => none
    match next with
    | some (.flowMappingEnd :: ts) => some (acc.reverse, ts)
    | some (.key :: ts) => do
      let (k, ts) ← flowPart handles [.value, .flowEntry, .flowMappingEnd] n ts
      match ts with
      | .value :: ts =>
        let (v, ts) ← flowPart handles [.flowEntry, .flowMappingEnd] n ts
        flowEntries handles n false ((k, v) :: acc) ts
      | ts => flowEntries handles n false ((k, empty) :: acc) ts
    | some ts => do
      let (k, ts) ← node handles n false false ts
      flowEntries handles n false ((k, empty) :: acc) ts
    | none => none
  | 0, _, _, _ => none
end

/-! ### Documents -/

/-- The directives before a document: the handles they give a meaning, and the tokens
after them. A version may be given once, and so may each handle. -/
def directives : Bool → List (String × String) → List Token →
    Option (List (String × String) × List Token)
  | versioned, handles, .version major minor :: ts =>
    if versioned || major != 1 || !(minor == 1 || minor == 2) then none
    else directives true handles ts
  | versioned, handles, .tagHandle handle beginning :: ts =>
    if handles.any (·.1 == handle) then none
    else directives versioned ((handle, beginning) :: handles) ts
  | _, handles, ts => some (handles, ts)

/-- Whether a document ends, empty, at this token. -/
def endsDocument : Token → Bool
  | .version .. | .tagHandle .. | .documentStart | .documentEnd | .streamEnd => true
  | _ => false

/-- The node of a document that begins with a marker, after it. -/
def markedDocument (handles : List (String × String)) (ts : List Token) :
    Option (Node String × List Token) :=
  match ts with
  | [] => none
  | t :: _ =>
    if endsDocument t then some (empty, ts) else node handles (2 * ts.length + 2) true false ts

/-- The one document in the tokens of a text; an empty text has an empty one. -/
def ofTokens? (ts : List Token) : Option (Node String) := do
  match ts with
  | [.streamEnd] => return empty
  | ts =>
    let (given, rest) ← directives false [] ts
    let handles := given ++ standardHandles
    let (root, after) ←
      match rest with
      | .documentStart :: rest => markedDocument handles rest
      | rest =>
        if rest.length = ts.length then node handles (2 * ts.length + 2) true false ts else none
    if after.dropWhile (· == .documentEnd) = [.streamEnd] then return root else none

end Node
end UiSuite.Yaml
