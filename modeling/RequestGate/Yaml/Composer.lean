import RequestGate.Entries
import RequestGate.Yaml.Scanner

/-!
# From YAML tokens to nodes

A `RequestGate.Yaml.Node` is a document without any trace of how it was laid out: scalars with their
tags, sequences and mappings. An alias is replaced by the node that its anchor stands before, which
must be complete by then, so no node contains itself.

Where a node is missing, as after `key:` at the end of a line, an empty plain scalar takes its place.

All functions read from the list of the tokens that are left. They call each other at most
`RequestGate.Yaml.composeFuel` deep.
-/

namespace RequestGate.Yaml

/-- A node of a document. -/
inductive Node where
  | scalar (tag : Option String) (style : Style) (text : String)
  | sequence (tag : Option String) (items : List Node)
  | mapping (tag : Option String) (entries : List (Node × Node))

/-- The node where none is written. -/
def Node.missing (tag : Option String) : Node := .scalar tag .plain ""

/-- The tokens that are left, and the nodes that can be referred to. -/
structure Composer where
  tokens : List Token
  anchors : Entries Node := []

/-- Reading from tokens. -/
abbrev Compose (α : Type) := StateT Composer Option α

namespace Compose

/-- The next token. -/
def peek? : Compose (Option Token) := do return (← get).tokens.head?

/-- Past the next token. -/
def advance : Compose Unit := modify fun s => { s with tokens := s.tokens.tail }

/-- Whether the next token is this one; then it is read. -/
def accept (token : Token) : Compose Bool := do
  if (← peek?) == some token then
    advance
    return true
  else return false

/-- Reads this token. -/
def expect (token : Token) : Compose Unit := do
  if ← accept token then return () else failure

/-- Whether the next token is one of these. -/
def isNext (tokens : List Token) : Compose Bool := do
  return (← peek?).any fun t => tokens.contains t

end Compose

open Compose

/-- The anchor and the tag before a node. -/
structure Properties where
  anchor : Option String := none
  tag : Option String := none

/-- Whether there are any. -/
def Properties.isGiven (p : Properties) : Bool := p.anchor.isSome || p.tag.isSome

/-- Reads an anchor and a tag, in either order. -/
def composeProperties : Compose Properties := do
  match ← peek? with
  | some (.anchor name) =>
    advance
    match ← peek? with
    | some (.tag tag) =>
      advance
      return ⟨some name, some tag⟩
    | _ => return ⟨some name, none⟩
  | some (.tag tag) =>
    advance
    match ← peek? with
    | some (.anchor name) =>
      advance
      return ⟨some name, some tag⟩
    | _ => return ⟨none, some tag⟩
  | _ => return {}

/-- Remembers the node of an anchor. -/
def remember (anchor : Option String) (node : Node) : Compose Node := do
  match anchor with
  | some name => modify fun s => { s with anchors := Entries.insert s.anchors name node }
  | none => pure ()
  return node

mutual

/-- Reads a node. Collections in blocks are only allowed if `inBlock`, and items without a block of
their own if `indentless`. -/
def composeNode : Nat → (inBlock indentless : Bool) → Compose Node
  | 0, _, _ => failure
  | fuel + 1, inBlock, indentless => do
    match ← peek? with
    | some (.alias name) =>
      advance
      match Entries.get? (← get).anchors name with
      | some node => return node
      | none => failure
    | _ =>
      let p ← composeProperties
      match ← peek? with
      | some .entry =>
        if indentless then
          remember p.anchor (.sequence p.tag (← composeIndentless fuel))
        -- an anchor or a tag alone belongs to a node without text
        else if p.isGiven then remember p.anchor (.missing p.tag)
        else failure
      | some (.scalar style text) =>
        advance
        remember p.anchor (.scalar p.tag style text)
      | some .flowSequence =>
        advance
        remember p.anchor (.sequence p.tag (← composeFlowItems fuel true))
      | some .flowMapping =>
        advance
        remember p.anchor (.mapping p.tag (← composeFlowEntries fuel true))
      | some .blockSequence =>
        if inBlock then
          advance
          remember p.anchor (.sequence p.tag (← composeItems fuel))
        else if p.isGiven then remember p.anchor (.missing p.tag)
        else failure
      | some .blockMapping =>
        if inBlock then
          advance
          remember p.anchor (.mapping p.tag (← composeEntries fuel))
        else if p.isGiven then remember p.anchor (.missing p.tag)
        else failure
      | _ => if p.isGiven then remember p.anchor (.missing p.tag) else failure

/-- Reads a node, unless one of these tokens comes next or no token is left. -/
def composeUnless : Nat → (stop : List Token) → (inBlock indentless : Bool) → Compose Node
  | 0, _, _, _ => failure
  | fuel + 1, stop, inBlock, indentless => do
    if (← peek?).isNone || (← isNext stop) then return .missing none
    else composeNode fuel inBlock indentless

/-- Reads the items of a block. -/
def composeItems : Nat → Compose (List Node)
  | 0 => failure
  | fuel + 1 => do
    if ← accept .entry then
      let item ← composeUnless fuel [.entry, .blockEnd] true false
      return item :: (← composeItems fuel)
    else
      expect .blockEnd
      return []

/-- Reads the items of a sequence that is not indented against its key. -/
def composeIndentless : Nat → Compose (List Node)
  | 0 => failure
  | fuel + 1 => do
    if ← accept .entry then
      let item ← composeUnless fuel [.entry, .key, .value, .blockEnd] true false
      return item :: (← composeIndentless fuel)
    else return []

/-- Reads the entries of a block. -/
def composeEntries : Nat → Compose (List (Node × Node))
  | 0 => failure
  | fuel + 1 => do
    if ← accept .blockEnd then return []
    else
      expect .key
      let key ← composeUnless fuel [.key, .value, .blockEnd] true true
      let value ←
        if ← accept .value then composeUnless fuel [.key, .value, .blockEnd] true true
        else pure (.missing none)
      return (key, value) :: (← composeEntries fuel)

/-- Reads the rest of an entry in a flow sequence, which is a mapping of its own. -/
def composeFlowPair : Nat → Compose (Node × Node)
  | 0 => failure
  | fuel + 1 => do
    let key ← composeUnless fuel [.value, .flowEntry, .flowSequenceEnd] false false
    let value ←
      if ← accept .value then composeUnless fuel [.flowEntry, .flowSequenceEnd] false false
      else pure (.missing none)
    return (key, value)

/-- Reads the items of a flow sequence; before every one but the first there is a comma. -/
def composeFlowItems : Nat → (first : Bool) → Compose (List Node)
  | 0, _ => failure
  | fuel + 1, first => do
    if ← accept .flowSequenceEnd then return []
    else
      if !first then expect .flowEntry
      if ← accept .key then
        let pair ← composeFlowPair fuel
        return .mapping none [pair] :: (← composeFlowItems fuel false)
      else if ← accept .flowSequenceEnd then return []
      else
        let item ← composeNode fuel false false
        return item :: (← composeFlowItems fuel false)

/-- Reads the entries of a flow mapping; before every one but the first there is a comma. -/
def composeFlowEntries : Nat → (first : Bool) → Compose (List (Node × Node))
  | 0, _ => failure
  | fuel + 1, first => do
    if ← accept .flowMappingEnd then return []
    else
      if !first then expect .flowEntry
      if ← accept .key then
        let key ← composeUnless fuel [.value, .flowEntry, .flowMappingEnd] false false
        let value ←
          if ← accept .value then composeUnless fuel [.flowEntry, .flowMappingEnd] false false
          else pure (.missing none)
        return (key, value) :: (← composeFlowEntries fuel false)
      else if ← accept .flowMappingEnd then return []
      else
        let key ← composeNode fuel false false
        return (key, .missing none) :: (← composeFlowEntries fuel false)

end

/-- As deep as functions can call each other: every third call reads a token. -/
def composeFuel (tokens : List Token) : Nat := 4 * (tokens.length + 1)

/-- Past the marks of ended documents. -/
def skipDocumentEnds (tokens : List Token) : List Token :=
  tokens.dropWhile (· == .documentEnd)

/-- Reads the one document of a text; `some none` if the text holds none. -/
def compose? (tokens : List Token) : Option (Option Node) :=
  let fuel := composeFuel tokens
  match tokens with
  | [] => some none
  | tokens => do
    let hasDirectives := tokens.head? == some .directive
    let body := tokens.dropWhile (· == .directive)
    let isExplicit := body.head? == some .documentStart
    if hasDirectives && !isExplicit then none
    else
      let body := if isExplicit then body.tail else body
      let (node, s) ←
        match body with
        | [] | .directive :: _ | .documentStart :: _ | .documentEnd :: _ =>
          if isExplicit then some (.missing none, { tokens := body })
          else none
        | body => (composeNode fuel true false).run { tokens := body }
      if (skipDocumentEnds s.tokens).isEmpty then some (some node) else none

end RequestGate.Yaml
