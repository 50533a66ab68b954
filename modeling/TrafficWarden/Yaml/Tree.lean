import TrafficWarden.Yaml.Tokens

/-!
# Trees of YAML

A stream of tokens is a tree of lists, tables and scalars, with anchors at its nodes and aliases
that refer to them. A node that is left out is a plain scalar without text.
-/

namespace TrafficWarden.Yaml

/-- A scalar as it is written, and its tag if it has one. -/
structure ScalarForm where
  text : String
  style : ScalarStyle
  tag : Option String
deriving DecidableEq, Repr

inductive Tree where
  | scalar (form : ScalarForm)
  | list (items : List Tree)
  | table (entries : List (Tree × Tree))
  | anchored (name : String) (node : Tree)
  | alias (name : String)
deriving Inhabited, Repr

namespace Tree

def blank : Tree := .scalar ⟨"", .plain, none⟩

abbrev Step (α : Type) := List Token → Option (α × List Token)

abbrev Handles := List (String × String)

def tagText? (handles : Handles) (handle suffix : String) : Option String :=
  if handle = "" then some suffix
  else (handles.find? (·.1 = handle)).map (·.2 ++ suffix)

structure Properties where
  anchor : Option String
  tag : Option String
deriving Repr

def readProperties (handles : Handles) : Step Properties
  | .anchor name :: .tag handle suffix :: rest => do
    return (⟨some name, ← tagText? handles handle suffix⟩, rest)
  | .tag handle suffix :: .anchor name :: rest => do
    return (⟨some name, ← tagText? handles handle suffix⟩, rest)
  | .anchor name :: rest => some (⟨some name, none⟩, rest)
  | .tag handle suffix :: rest => do return (⟨none, ← tagText? handles handle suffix⟩, rest)
  | rest => some (⟨none, none⟩, rest)

def Properties.isEmpty (p : Properties) : Bool := p.anchor.isNone && p.tag.isNone

def withAnchor (p : Properties) (node : Tree) : Tree :=
  match p.anchor with
  | some name => .anchored name node
  | none => node

/-- A node, unless one of the given tokens tells that it is left out. -/
def readUnless (stop : Token → Bool) (node : Step Tree) : Step Tree
  | t :: rest => if stop t then some (blank, t :: rest) else node (t :: rest)
  | [] => none

def readDashes (node : Step Tree) : Nat → Step (List Tree)
  | 0, _ => none
  | fuel + 1, .blockEntry :: rest => do
    let (item, rest) ← readUnless (fun t => t = .blockEntry || t = .blockEnd) node rest
    let (items, rest) ← readDashes node fuel rest
    return (item :: items, rest)
  | _ + 1, .blockEnd :: rest => some ([], rest)
  | _ + 1, _ => none

/-- The items of a list that stands at the column of the key before it. -/
def readLooseDashes (node : Step Tree) : Nat → Step (List Tree)
  | 0, _ => none
  | fuel + 1, .blockEntry :: rest => do
    let stop := fun t => t = .blockEntry || t = .key || t = .value || t = .blockEnd
    let (item, rest) ← readUnless stop node rest
    let (items, rest) ← readLooseDashes node fuel rest
    return (item :: items, rest)
  | _ + 1, rest => some ([], rest)

def readRows (node : Step Tree) : Nat → Step (List (Tree × Tree))
  | 0, _ => none
  | fuel + 1, .key :: rest => do
    let stop := fun t => t = .key || t = .value || t = .blockEnd
    let (name, rest) ← readUnless stop node rest
    let (value, rest) ← match rest with
      | .value :: rest => readUnless stop node rest
      | rest => some (blank, rest)
    let (rows, rest) ← readRows node fuel rest
    return ((name, value) :: rows, rest)
  | _ + 1, .blockEnd :: rest => some ([], rest)
  | _ + 1, _ => none

/-- A key and its value among the items of a list in brackets, after the mark of the key. A key
that is left out takes the token after the mark with it. -/
def readPair (node : Step Tree) : Step (Tree × Tree) := fun tokens => do
  let stop := fun t => t = .value || t = .comma || t = .listClose
  let (name, rest) ← match tokens with
    | t :: rest => if stop t then some (blank, rest) else node tokens
    | [] => none
  match rest with
  | .value :: rest =>
    let (value, rest) ← readUnless (fun t => t = .comma || t = .listClose) node rest
    return ((name, value), rest)
  | rest => return ((name, blank), rest)

def readItem (node : Step Tree) : Step Tree
  | .key :: rest => (readPair node rest).map fun (pair, rest) => (.table [pair], rest)
  | rest => node rest

def readItems (node : Step Tree) : Nat → Step (List Tree)
  | 0, _ => none
  | _ + 1, .listClose :: rest => some ([], rest)
  | fuel + 1, rest => do
    let (item, rest) ← readItem node rest
    match rest with
    | .comma :: rest =>
      let (items, rest) ← readItems node fuel rest
      return (item :: items, rest)
    | .listClose :: rest => return ([item], rest)
    | _ => none

/-- One entry of a table in brackets. A key without a mark has no value. -/
def readMember (node : Step Tree) : Step (Tree × Tree)
  | .key :: rest => do
    let (name, rest) ←
      readUnless (fun t => t = .value || t = .comma || t = .tableClose) node rest
    match rest with
    | .value :: rest =>
      let (value, rest) ← readUnless (fun t => t = .comma || t = .tableClose) node rest
      return ((name, value), rest)
    | rest => return ((name, blank), rest)
  | rest => (node rest).map fun (name, rest) => ((name, blank), rest)

def readMembers (node : Step Tree) : Nat → Step (List (Tree × Tree))
  | 0, _ => none
  | _ + 1, .tableClose :: rest => some ([], rest)
  | fuel + 1, rest => do
    let (member, rest) ← readMember node rest
    match rest with
    | .comma :: rest =>
      let (members, rest) ← readMembers node fuel rest
      return (member :: members, rest)
    | .tableClose :: rest => return ([member], rest)
    | _ => none

/-- Where a node stands: in brackets, in an indented list, or beside a key, where a list may stand
at the column of the key. -/
inductive Place where
  | bracketed
  | item
  | beside
deriving DecidableEq, Repr

/-- A node with at most the given number of nodes around one another. -/
def readNode (handles : Handles) : Nat → Place → Step Tree
  | 0, _, _ => none
  | _ + 1, _, .alias name :: rest => some (.alias name, rest)
  | depth + 1, place, tokens => do
    let (p, tokens) ← readProperties handles tokens
    let here := withAnchor p
    let length := tokens.length + 1
    match place, tokens with
    | .beside, .blockEntry :: _ =>
      let (items, rest) ← readLooseDashes (readNode handles depth .item) length tokens
      return (here (.list items), rest)
    | _, .scalar text style :: rest => return (here (.scalar ⟨text, style, p.tag⟩), rest)
    | _, .listOpen :: rest =>
      let (items, rest) ← readItems (readNode handles depth .bracketed) length rest
      return (here (.list items), rest)
    | _, .tableOpen :: rest =>
      let (members, rest) ← readMembers (readNode handles depth .bracketed) length rest
      return (here (.table members), rest)
    | .bracketed, rest =>
      if p.isEmpty then none else return (here (.scalar ⟨"", .plain, p.tag⟩), rest)
    | _, .blockList :: rest =>
      let (items, rest) ← readDashes (readNode handles depth .item) length rest
      return (here (.list items), rest)
    | _, .blockTable :: rest =>
      let (rows, rest) ← readRows (readNode handles depth .beside) length rest
      return (here (.table rows), rest)
    | _, rest =>
      if p.isEmpty then none else return (here (.scalar ⟨"", .plain, p.tag⟩), rest)

def standardHandles : Handles := [("!", "!"), ("!!", "tag:yaml.org,2002:")]

/-- The directives before a document: at most one version, of 1.1 or 1.2, and no handle twice. -/
def readDirectives : Bool → Handles → Step Handles
  | false, handles, .version major minor :: rest =>
    if major = 1 ∧ (minor = 1 ∨ minor = 2) then readDirectives true handles rest else none
  | true, _, .version _ _ :: _ => none
  | seen, handles, .tagHandle handle start :: rest =>
    if handles.any (·.1 = handle) then none
    else readDirectives seen ((handle, start) :: handles) rest
  | _, handles, rest => some (handles, rest)

def marksDocument : Token → Bool
  | .version _ _ => true
  | .tagHandle _ _ => true
  | .documentStart => true
  | .documentEnd => true
  | .streamEnd => true
  | _ => false

/-- The only document of a stream; the inner `none` is a stream without document. -/
def ofTokens? (tokens : List Token) : Option (Option Tree) := do
  match tokens with
  | [.streamEnd] => return none
  | _ =>
    let (given, rest) ← readDirectives false [] tokens
    let depth := tokens.length + 1
    let (root, rest) ← match rest with
      | .documentStart :: rest =>
        readUnless marksDocument (readNode (given ++ standardHandles) depth .item) rest
      | rest =>
        if rest.length = tokens.length then readNode standardHandles depth .item rest else none
    match rest.dropWhile (· = .documentEnd) with
    | [.streamEnd] => return some root
    | _ => none

end Tree

end TrafficWarden.Yaml
