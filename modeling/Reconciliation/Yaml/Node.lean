import Reconciliation.Yaml.Token.Lexer

/-! A document is a tree of nodes with their places and tags. Aliases stay references by number,
since an anchor may be inside the node that it names. The numbers are given out by how many names
are known, so that a name given again takes a number that the next new name takes too, and a number
stands for the last node that took it. -/
namespace Reconciliation.Yaml

inductive Node where
  /-- A document with nothing in it. -/
  | nothing
  | aliasOf (number : Nat)
  | scalar (mark : Mark) (tag : Option String) (style : ScalarStyle) (text : String)
  | sequence (mark : Mark) (tag : Option String) (items : List Node)
  | mapping (mark : Mark) (tag : Option String) (entries : List (Node × Node))

structure Document where
  root : Node
  /-- The nodes that the numbers of aliases stand for. -/
  anchored : List (Nat × Node) := []

namespace Document

/-- The node behind an alias; all others stand for themselves. -/
def resolve (d : Document) : Node → Node
  | .aliasOf number => (d.anchored.lookup number).getD .nothing
  | n => n

end Document

namespace Node

mutual

/-- How many parts a node is made of, with the ends of collections. -/
def size : Node → Nat
  | nothing | aliasOf _ | scalar .. => 1
  | sequence _ _ items => 2 + sizeItems items
  | mapping _ _ entries => 2 + sizeEntries entries

def sizeItems : List Node → Nat
  | [] => 0
  | n :: rest => n.size + sizeItems rest

def sizeEntries : List (Node × Node) → Nat
  | [] => 0
  | (k, v) :: rest => k.size + v.size + sizeEntries rest

end

/-- What is known at a place in a document. -/
structure Scope where
  tokens : List Token
  /-- What the handles of tags stand for. -/
  handles : List (String × String) := []
  /-- The numbers of anchor names. -/
  names : List (String × Nat) := []
  /-- The last anchor that took a number, by how many there were before it. -/
  takers : List (Nat × Nat) := []
  /-- The nodes of anchors. -/
  nodes : List (Nat × Node) := []
  /-- How many anchors there were. -/
  count : Nat := 0

abbrev ComposeT := StateT Scope Option

def peek : ComposeT Token := fun s =>
  match s.tokens with
  | t :: _ => some (t, s)
  | [] => none

def skip : ComposeT Unit := modify fun s => { s with tokens := s.tokens.drop 1 }

def empty (mark : Mark) (tag : Option String) : Node := scalar mark tag .plain ""

/-- Gives an anchor its number before its node is read. -/
def nameAnchor (name : String) : ComposeT Nat := do
  let s ← get
  let number := s.names.length
  set { s with
    names := (name, number) :: s.names.filter (·.1 != name)
    takers := (number, s.count) :: s.takers
    count := s.count + 1 }
  return s.count

/-- Reads a node, under an anchor if there is one. -/
def anchored (name : Option String) (read : ComposeT Node) : ComposeT Node := do
  match name with
  | none => read
  | some name =>
    let anchor ← nameAnchor name
    let n ← read
    modify fun s => { s with nodes := (anchor, n) :: s.nodes }
    return n

/-- The properties before a node: an anchor and a tag, in either order. -/
structure Properties where
  anchor : Option String := none
  tag : Option (String × String) := none

def properties : ComposeT Properties := do
  match (← peek).sign with
  | .anchor name =>
    skip
    match (← peek).sign with
    | .tag handle suffix =>
      skip
      return { anchor := some name, tag := some (handle, suffix) }
    | _ => return { anchor := some name }
  | .tag handle suffix =>
    skip
    match (← peek).sign with
    | .anchor name =>
      skip
      return { anchor := some name, tag := some (handle, suffix) }
    | _ => return { tag := some (handle, suffix) }
  | _ => return {}

/-- The full tag. A handle has to be declared. -/
def fullTag (p : Properties) : ComposeT (Option String) := do
  match p.tag with
  | none => return none
  | some (handle, suffix) =>
    if handle.isEmpty then return some suffix
    match (← get).handles.lookup handle with
    | some stem => return some (stem ++ suffix)
    | none => failure

/-- The place just after the next token, which is skipped. -/
def skipTo : ComposeT Mark := do
  let t ← peek
  skip
  return t.stop

def nextIs (signs : List Sign) : ComposeT Bool := do
  return signs.contains (← peek).sign

/-- Reads a node unless one of the signs is next, where an empty scalar stands. -/
def unlessNext (signs : List Sign) (mark : Mark) (read : ComposeT Node) : ComposeT Node := do
  if ← nextIs signs then return empty mark none else read

mutual

/-- A node. Block collections may begin only in blocks, and a sequence that is not indented only as
a key or a value of a block mapping. -/
def node (inBlock unindented : Bool) : (fuel : Nat) → ComposeT Node
  | 0 => failure
  | n + 1 => do
    let first ← peek
    match first.sign with
    | .aliasOf name =>
      skip
      match (← get).names.lookup name with
      | some number => return aliasOf number
      | none => failure
    | _ =>
      let p ← properties
      let tag ← fullTag p
      anchored p.anchor (content inBlock unindented first.mark tag p n)

def content (inBlock unindented : Bool) (mark : Mark) (tag : Option String) (p : Properties) :
    (fuel : Nat) → ComposeT Node
  | 0 => failure
  | n + 1 => do
    match (← peek).sign with
    | .scalar style text =>
      skip
      return scalar mark (tag.filter (· != "!")) style text
    | .flowSequenceStart =>
      skip
      return sequence mark tag (← flowItems true n)
    | .flowMappingStart =>
      skip
      return mapping mark tag (← flowEntries true n)
    | sign =>
      if unindented && sign = .blockEntry then return sequence mark tag (← unindentedItems n)
      else if inBlock && sign = .blockSequenceStart then
        skip
        return sequence mark tag (← blockItems n)
      else if inBlock && sign = .blockMappingStart then
        skip
        return mapping mark tag (← blockEntries n)
      else if p.anchor.isSome || p.tag.isSome then return empty mark tag
      else failure

def blockItems : (fuel : Nat) → ComposeT (List Node)
  | 0 => failure
  | n + 1 => do
    match (← peek).sign with
    | .blockEntry =>
      let stop ← skipTo
      let item ← unlessNext [.blockEntry, .blockEnd] stop (node true false n)
      return item :: (← blockItems n)
    | .blockEnd =>
      skip
      return []
    | _ => failure

def unindentedItems : (fuel : Nat) → ComposeT (List Node)
  | 0 => failure
  | n + 1 => do
    if ← nextIs [.blockEntry] then
      let stop ← skipTo
      let item ← unlessNext [.blockEntry, .key, .value, .blockEnd] stop (node true false n)
      return item :: (← unindentedItems n)
    else return []

def blockEntries : (fuel : Nat) → ComposeT (List (Node × Node))
  | 0 => failure
  | n + 1 => do
    match (← peek).sign with
    | .key =>
      let stop ← skipTo
      let key ← unlessNext [.key, .value, .blockEnd] stop (node true true n)
      let value ← blockValue n
      return (key, value) :: (← blockEntries n)
    | .blockEnd =>
      skip
      return []
    | _ => failure

def blockValue : (fuel : Nat) → ComposeT Node
  | 0 => failure
  | n + 1 => do
    if ← nextIs [.value] then
      let stop ← skipTo
      unlessNext [.key, .value, .blockEnd] stop (node true true n)
    else return empty (← peek).mark none

/-- The items of a flow sequence. A pair among them is a mapping of one entry. -/
def flowItems (first : Bool) : (fuel : Nat) → ComposeT (List Node)
  | 0 => failure
  | n + 1 => do
    if ← nextIs [.flowSequenceEnd] then
      skip
      return []
    if !first then
      if ← nextIs [.flowEntry] then skip else failure
    let t ← peek
    match t.sign with
    | .flowSequenceEnd =>
      skip
      return []
    | .key =>
      skip
      let pair ← flowPair n
      return mapping t.mark none [pair] :: (← flowItems false n)
    | _ =>
      let item ← node false false n
      return item :: (← flowItems false n)

/-- A pair in a flow sequence. Where its key is empty, the next sign is skipped. -/
def flowPair : (fuel : Nat) → ComposeT (Node × Node)
  | 0 => failure
  | n + 1 => do
    let key ← if ← nextIs [.value, .flowEntry, .flowSequenceEnd] then
      let stop ← skipTo
      pure (empty stop none)
    else node false false n
    return (key, ← flowValue .flowSequenceEnd n)

def flowValue (close : Sign) : (fuel : Nat) → ComposeT Node
  | 0 => failure
  | n + 1 => do
    if ← nextIs [.value] then skip else return empty (← peek).mark none
    unlessNext [.flowEntry, close] (← peek).mark (node false false n)

/-- The entries of a flow mapping. An item without a colon is a key with an empty value. -/
def flowEntries (first : Bool) : (fuel : Nat) → ComposeT (List (Node × Node))
  | 0 => failure
  | n + 1 => do
    if ← nextIs [.flowMappingEnd] then
      skip
      return []
    if !first then
      if ← nextIs [.flowEntry] then skip else failure
    match (← peek).sign with
    | .flowMappingEnd =>
      skip
      return []
    | .key =>
      skip
      let mark := (← peek).mark
      let key ← unlessNext [.value, .flowEntry, .flowMappingEnd] mark (node false false n)
      let value ← flowValue .flowMappingEnd n
      return (key, value) :: (← flowEntries false n)
    | _ =>
      let key ← node false false n
      let value := empty (← peek).mark none
      return (key, value) :: (← flowEntries false n)

end

end Node

namespace Document

open Node

def defaultHandles : List (String × String) := [("!", "!"), ("!!", "tag:yaml.org,2002:")]

/-- The directives before a document: at most one version, and each handle once. -/
def directives (versioned : Bool) (handles : List (String × String)) : (fuel : Nat) →
    ComposeT (List (String × String))
  | 0 => failure
  | n + 1 => do
    match (← peek).sign with
    | .versionDirective major minor =>
      if versioned || major ≠ 1 || (minor ≠ 1 && minor ≠ 2) then failure
      skip
      directives true handles n
    | .tagDirective handle stem =>
      if (handles.lookup handle).isSome then failure
      skip
      directives versioned ((handle, stem) :: handles) n
    | _ => return handles ++ defaultHandles

def beginsExplicitly : Sign → Bool
  | .versionDirective .. | .tagDirective .. | .documentStart => true
  | _ => false

/-- What the numbers of the aliases stand for at the end of the document. -/
def anchoredOf (s : Scope) : List (Nat × Node) :=
  s.takers.filterMap fun (number, anchor) => (s.nodes.lookup anchor).map (number, ·)

/-- One document with the signs around it. Only the first may begin without a mark. -/
def one (fuel : Nat) : ComposeT Document := do
  modify fun s => { tokens := s.tokens, handles := defaultHandles }
  let explicit := beginsExplicitly (← peek).sign
  if explicit then
    let handles ← directives false [] fuel
    if !(← nextIs [.documentStart]) then failure
    skip
    modify fun s => { s with handles }
  let t ← peek
  let bare := beginsExplicitly t.sign || t.sign = .documentEnd || t.sign = .streamEnd
  let root ← if explicit && bare then pure (empty t.mark none) else node true false fuel
  if ← nextIs [.documentEnd] then skip
  return ⟨root, anchoredOf (← get)⟩

def all (first : Bool) : (fuel : Nat) → ComposeT (List Document)
  | 0 => failure
  | n + 1 => do
    if !first then modify fun s => { s with tokens := s.tokens.dropWhile (·.sign = .documentEnd) }
    let t ← peek
    if t.sign = .streamEnd then return []
    if !first && !beginsExplicitly t.sign then failure
    let d ← one (4 * (← get).tokens.length)
    return d :: (← all false n)

/-- The documents of a text, unless it is no YAML. -/
def ofText? (text : String) : Option (List Document) := do
  let tokens ← Token.ofText? text
  let (ds, _) ← all true (tokens.length + 1) { tokens }
  return if ds.isEmpty then [⟨.nothing, []⟩] else ds

end Document

end Reconciliation.Yaml
