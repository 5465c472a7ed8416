/-
  PropertyGraph.Yaml.Node
  ───────────────────────
  **WHAT A YAML TEXT SAYS.**

  A text holds at most one document here, and a document is one node:

      node      *name  |  &name? tag? (scalar | sequence | mapping)
      sequence  - node …          |  [ node , … ]
      mapping   node : node …     |  { node : node , … }

  A node that is left out is an empty plain scalar.  The items of a sequence
  that is the value of a block mapping need no deeper column.  In brackets
  `key: value` is a mapping of its own.

  `*name` stands for a node named `&name` before it.  A name gets a number
  where it is defined, and what the number stands for is known only at the
  end of the document (`Document.scalar?`), so a node stays finite although
  a collection may refer to itself.
-/
import PropertyGraph.Yaml.Token

namespace PropertyGraph.Yaml

/-- A scalar with its tag written out. -/
structure Scalar where
  tag : Option String
  style : ScalarStyle
  text : String
  deriving DecidableEq

/-- A value of a YAML document. -/
inductive Node where
  | scalar (scalar : Scalar)
  | sequence (items : List Node)
  | mapping (entries : List (Node × Node))
  /-- What stands elsewhere under a number. -/
  | alias (number : Nat)

/-- The node of a document and what the numbers in it stand for. -/
structure Document where
  root : Node
  /-- The latest come first; none stands for a collection. -/
  targets : List (Nat × Option Scalar)

namespace Document

/-- The scalar that a node is or stands for. -/
def scalar? (document : Document) : Node → Option Scalar
  | .scalar scalar => some scalar
  | .alias number => (document.targets.lookup number).join
  | _ => none

end Document

namespace Node

/-- A node that is left out. -/
def empty : Node := .scalar ⟨none, .plain, ""⟩

/-! ## §1. Reading tokens. -/

/-- Tokens still to be read, and what they may refer to. -/
structure Unread where
  tokens : List Token
  /-- Handles with the beginnings of tags they stand for. -/
  handles : List (String × String)
  /-- The names defined so far with their numbers, each name once. -/
  numbers : List (String × Nat)
  /-- What the numbers stand for, the latest first. -/
  targets : List (Nat × Option Scalar)

/-- Something read from tokens. -/
abbrev Reading := StateT Unread Option

/-- The next token, which stays unread. -/
def peek : Reading (Option Token) := return (← get).tokens.head?

/-- Reads the next token, whatever it is. -/
def skip : Reading Unit := modify (fun unread => { unread with tokens := unread.tokens.tail })

/-- Reads the next token; there must be one. -/
def next : Reading Token := do
  match ← peek with
  | some token => do
    skip
    return token
  | none => failure

/-- Lets a name stand for a scalar, or for a collection.  Its number is the
count of the different names before it; so a name that is defined again may
share a number with the next new name, and then it stands for what that
stands for. -/
def define (name : Option String) (target : Option Scalar) : Reading Unit :=
  match name with
  | some name =>
    modify (fun unread =>
      let number := unread.numbers.length
      { unread with
        numbers := (name, number) :: unread.numbers.filter (fun entry => entry.1 ≠ name)
        targets := (number, target) :: unread.targets })
  | none => return ()

/-- The number that a name has here. -/
def resolve (name : String) : Reading Node := do
  match (← get).numbers.lookup name with
  | some number => return .alias number
  | none => failure

/-- A tag written out. -/
def writeOut (handle suffix : String) : Reading String := do
  if handle = "" then return suffix
  else
    match (← get).handles.lookup handle with
    | some stem => return stem ++ suffix
    | none => failure

/-- The name and the tag of a node, in either order. -/
def properties : Reading (Option String × Option String) := do
  match (← get).tokens with
  | .anchor name :: .tag handle suffix :: _
  | .tag handle suffix :: .anchor name :: _ => do
    skip
    skip
    return (some name, some (← writeOut handle suffix))
  | .anchor name :: _ => do
    skip
    return (some name, none)
  | .tag handle suffix :: _ => do
    skip
    return (none, some (← writeOut handle suffix))
  | _ => return (none, none)

/-- What `read` reads, or an empty node in front of one of some tokens. -/
def unlessAt (ends : List Token) (read : Reading Node) : Reading Node := do
  if (← peek).any ends.contains then return empty else read

/-- The value of an entry, if a colon is there. -/
def valueUnlessAt (ends : List Token) (read : Reading Node) : Reading Node := do
  if (← peek) = some .value then
    skip
    unlessAt ends read
  else return empty

/-- Reads the comma before a member of a collection in brackets, or the
bracket after the last one.  No comma is before the first member, and one may
be after the last.  The answer tells whether the bracket has been read. -/
def closes (first : Bool) (bracket : Token) : Reading Bool := do
  if (← peek) = some bracket then
    skip
    return true
  else
    if ¬ first then
      if (← next) ≠ .comma then failure
    if (← peek) = some bracket then
      skip
      return true
    else return false

/-! ## §2. Nodes. -/

/-- How a collection is written. -/
inductive Form where
  | blockSequence
  /-- Items at the column of the mapping around them. -/
  | alignedSequence
  | blockMapping
  | flowSequence
  | flowMapping
  deriving DecidableEq

/-- The collection that a token begins.  Blocks are left out inside brackets,
and `aligned` allows items at the column of the mapping around them. -/
def form? (block aligned : Bool) : Token → Option Form
  | .entry => if aligned then some .alignedSequence else none
  | .blockSequence => if block then some .blockSequence else none
  | .blockMapping => if block then some .blockMapping else none
  | .flowSequence => some .flowSequence
  | .flowMapping => some .flowMapping
  | _ => none

/-- A scalar; the tag `!` says no more than that it is one. -/
def ofScalar (tag : Option String) (style : ScalarStyle) (text : String) : Scalar :=
  ⟨tag.filter (· ≠ "!"), style, text⟩

mutual

/-- A node. -/
def read (block aligned : Bool) : Nat → Reading Node
  | 0 => failure
  | fuel + 1 => do
    match ← peek with
    | some (.alias name) => do
      skip
      resolve name
    | _ => do
      let (name, tag) ← properties
      match ← peek with
      | some (.scalar style text) => do
        skip
        define name (ofScalar tag style text)
        return .scalar (ofScalar tag style text)
      | token => do
        match token.bind (form? block aligned) with
        | some form => do
          -- the collection may be referred to from inside it
          define name none
          if form ≠ .alignedSequence then skip
          match form with
          | .blockSequence => return .sequence (← readItems fuel)
          | .alignedSequence => return .sequence (← readAlignedItems fuel)
          | .blockMapping => return .mapping (← readEntries fuel)
          | .flowSequence => return .sequence (← readFlowItems true fuel)
          | .flowMapping => return .mapping (← readFlowEntries true fuel)
        | none => do
          if name.isNone ∧ tag.isNone then failure
          define name (some ⟨tag, .plain, ""⟩)
          return .scalar ⟨tag, .plain, ""⟩

/-- Items of a block, and its end. -/
def readItems : Nat → Reading (List Node)
  | 0 => failure
  | fuel + 1 => do
    match ← next with
    | .entry => do
      let item ← unlessAt [.entry, .blockEnd] (read true false fuel)
      return item :: (← readItems fuel)
    | .blockEnd => return []
    | _ => failure

/-- Items at the column of the mapping around them. -/
def readAlignedItems : Nat → Reading (List Node)
  | 0 => failure
  | fuel + 1 => do
    if (← peek) = some .entry then
      skip
      let item ← unlessAt [.entry, .key, .value, .blockEnd] (read true false fuel)
      return item :: (← readAlignedItems fuel)
    else return []

/-- Entries of a block, and its end. -/
def readEntries : Nat → Reading (List (Node × Node))
  | 0 => failure
  | fuel + 1 => do
    match ← next with
    | .key => do
      let ends := [.key, .value, .blockEnd]
      let key ← unlessAt ends (read true true fuel)
      let value ← valueUnlessAt ends (read true true fuel)
      return (key, value) :: (← readEntries fuel)
    | .blockEnd => return []
    | _ => failure

/-- Items up to the closing bracket. -/
def readFlowItems (first : Bool) : Nat → Reading (List Node)
  | 0 => failure
  | fuel + 1 => do
    if ← closes first .flowSequenceEnd then return []
    else
      let item ←
        if (← peek) = some .key then do
          skip
          pure (.mapping [← readPair fuel])
        else read false false fuel
      return item :: (← readFlowItems false fuel)

/-- An entry among items.  With no key, the token after the question mark is
lost. -/
def readPair : Nat → Reading (Node × Node)
  | 0 => failure
  | fuel + 1 => do
    let ends := [.comma, .flowSequenceEnd]
    let key ←
      if (← peek).any (Token.value :: ends).contains then do
        skip
        pure empty
      else read false false fuel
    return (key, ← valueUnlessAt ends (read false false fuel))

/-- Entries up to the closing brace. -/
def readFlowEntries (first : Bool) : Nat → Reading (List (Node × Node))
  | 0 => failure
  | fuel + 1 => do
    if ← closes first .flowMappingEnd then return []
    else
      let ends := [.comma, .flowMappingEnd]
      let entry ←
        if (← peek) = some .key then do
          skip
          let key ← unlessAt (.value :: ends) (read false false fuel)
          pure (key, ← valueUnlessAt ends (read false false fuel))
        -- a key without a colon
        else pure (← read false false fuel, empty)
      return entry :: (← readFlowEntries false fuel)

end

end Node

/-! ## §3. Documents. -/

namespace Document

/-- The handles that the directives of a document define, and the tokens after
them.  The version must be 1.1 or 1.2, and nothing may be said twice. -/
def readDirectives (versioned : Bool) (handles : List (String × String)) :
    List Token → Option (List (String × String) × List Token)
  | .version major minor :: tokens =>
    if versioned ∨ major ≠ 1 ∨ (minor ≠ 1 ∧ minor ≠ 2) then none
    else readDirectives true handles tokens
  | .tagHandle handle stem :: tokens =>
    if (handles.lookup handle).isSome then none
    else readDirectives versioned ((handle, stem) :: handles) tokens
  | tokens => some (handles, tokens)

/-- Tokens that only a document of its own begins with. -/
def beginsDocument : Token → Bool
  | .version _ _ | .tagHandle _ _ | .documentStart => true
  | _ => false

/-- The handles that every document knows. -/
def commonHandles : List (String × String) := [("!", "!"), ("!!", "tag:yaml.org,2002:")]

/-- A document after its directives and its mark, under the handles that they
define, and the tokens after it. -/
def ofContent? (handles : List (String × String)) (tokens : List Token) :
    Option (Document × List Token) :=
  -- between two tokens there are at most three steps
  let fuel := 4 * tokens.length + 4
  (Node.read true false fuel ⟨tokens, handles ++ commonHandles, [], []⟩).map
    (fun (root, unread) => (⟨root, unread.targets⟩, unread.tokens))

/-- A document that begins with directives or a mark. -/
def ofMarked? (tokens : List Token) : Option (Document × List Token) := do
  let (handles, tokens) ← readDirectives false [] tokens
  match tokens with
  | .documentStart :: tokens =>
    if tokens.head?.all (fun token => beginsDocument token || token == .documentEnd) then
      return (⟨.empty, []⟩, tokens)
    else ofContent? handles tokens
  | _ => none

/-- The document of a text that is at most one, or `some none` if there is
none.  It may be marked as ended more than once. -/
def ofTokens? (tokens : List Token) : Option (Option Document) :=
  if tokens.isEmpty then some none
  else do
    let (document, rest) ←
      if tokens.head?.any beginsDocument then ofMarked? tokens else ofContent? [] tokens
    if rest.all (· == .documentEnd) then return some document else none

/-- The document of a text, or `some none` if there is nothing but comments. -/
def parse (text : String) : Option (Option Document) := (Token.scan text).bind ofTokens?

end Document

end PropertyGraph.Yaml
