import UnitLedger.Yaml.Token

/-!
  UnitLedger.Yaml.Node — the nodes of a YAML document.

  A text holds one document or none. An anchor gives a node a number, and an alias stands for the
  last node of the document that has its number. A name's number is the count of names that were
  known when it was given, so a name that is given anew can share its number with a later one.
-/

namespace UnitLedger.Yaml

/-- What may stand in front of a node. -/
structure Properties where
  anchor : Option Nat := none
  tag : Option String := none
  deriving DecidableEq, Repr

inductive Node where
  | scalar (properties : Properties) (style : Style) (text : String)
  | list (properties : Properties) (items : List Node)
  | map (properties : Properties) (fields : List (Node × Node))
  /-- An alias for the node with this anchor. -/
  | reference (anchor : Nat)
  deriving Repr, Inhabited

namespace Node

/-- A node that is left out. -/
def empty : Node := scalar {} .plain ""

mutual

/-- The last node with this number, in the order in which nodes start. -/
def lastAnchored? (anchor : Nat) : Node → Option Node
  | scalar p style text => if p.anchor = some anchor then some (scalar p style text) else none
  | list p items =>
    (lastOfItems? anchor items).or (if p.anchor = some anchor then some (list p items) else none)
  | map p fields =>
    (lastOfFields? anchor fields).or (if p.anchor = some anchor then some (map p fields) else none)
  | reference _ => none

def lastOfItems? (anchor : Nat) : List Node → Option Node
  | [] => none
  | n :: rest => (lastOfItems? anchor rest).or (lastAnchored? anchor n)

def lastOfFields? (anchor : Nat) : List (Node × Node) → Option Node
  | [] => none
  | (k, v) :: rest =>
    ((lastOfFields? anchor rest).or (lastAnchored? anchor v)).or (lastAnchored? anchor k)

end

end Node

/-! ## Reading tokens -/

structure Reading where
  tokens : List Token
  /-- The handles of tags and what they are written for. -/
  handles : List (String × String) := []
  /-- The names of anchors and their numbers, the latest first. -/
  names : List (String × Nat) := []

/-- Reads some of the tokens, if they fit. -/
abbrev Parse : Type → Type := StateT Reading Option

namespace Parse

/-- The next token. -/
def peek : Parse Token := do return (← get).tokens.headD .finish

def skip : Parse Unit := modify fun r => { r with tokens := r.tokens.drop 1 }

def fail {α : Type} : Parse α := fun _ => none

/-- Gives a name its number. -/
def define (name : String) : Parse Nat := do
  let names := (← get).names
  let number := names.length
  modify fun r => { r with names := (name, number) :: names.filter (·.1 != name) }
  return number

def tagText (handle suffix : String) : Parse String := do
  if handle.isEmpty then return suffix
  match (← get).handles.lookup handle with
  | some expansion => return expansion ++ suffix
  | none => fail

/-- An anchor name and a tag in either order, each at most once. -/
def propertyMarks : Parse (Option String × Option String) := do
  match ← peek with
  | .anchor name =>
    skip
    match ← peek with
    | .tag handle suffix => skip; return (some name, some (← tagText handle suffix))
    | _ => return (some name, none)
  | .tag handle suffix =>
    skip
    match ← peek with
    | .anchor name => skip; return (some name, some (← tagText handle suffix))
    | _ => return (none, some (← tagText handle suffix))
  | _ => return (none, none)

/-- The properties of a node that starts here. -/
def properties (marks : Option String × Option String) : Parse Properties := do
  match marks.1 with
  | none => return { tag := marks.2 }
  | some name => return { anchor := some (← define name), tag := marks.2 }

end Parse

open Parse

mutual

/-- A node. Block collections are allowed if `inBlock`, a list whose items stand in the column of
the key before them if `isValue`. -/
def parseNode (inBlock isValue : Bool) : Nat → Parse Node
  | 0 => fail
  | fuel + 1 => do
    if let .reference name ← peek then
      match (← get).names.lookup name with
      | some number => skip; return .reference number
      | none => fail
    else
      let marks ← propertyMarks
      let bare := marks.1.isNone && marks.2.isNone
      match ← peek with
      | .scalar style text =>
        let p ← properties marks
        skip
        return .scalar p style text
      | .openFlowList =>
        let p ← properties marks
        skip
        return .list p (← parseFlowItems true fuel)
      | .openFlowMap =>
        let p ← properties marks
        skip
        return .map p (← parseFlowFields true fuel)
      | .item =>
        if isValue then
          let p ← properties marks
          return .list p (← parseInnerItems fuel)
        else if bare then fail
        else return .scalar (← properties marks) .plain ""
      | .openBlockList =>
        if inBlock then
          let p ← properties marks
          skip
          return .list p (← parseBlockItems fuel)
        else if bare then fail
        else return .scalar (← properties marks) .plain ""
      | .openBlockMap =>
        if inBlock then
          let p ← properties marks
          skip
          return .map p (← parseBlockFields fuel)
        else if bare then fail
        else return .scalar (← properties marks) .plain ""
      | _ => if bare then fail else return .scalar (← properties marks) .plain ""

/-- The items of a block list, up to its end. -/
def parseBlockItems : Nat → Parse (List Node)
  | 0 => fail
  | fuel + 1 => do
    match ← peek with
    | .item =>
      skip
      let item ← match ← peek with
        | .item | .closeBlock => pure Node.empty
        | _ => parseNode true false fuel
      return item :: (← parseBlockItems fuel)
    | .closeBlock => skip; return []
    | _ => fail

/-- The items of a list that shares its column with a key, as far as they go. -/
def parseInnerItems : Nat → Parse (List Node)
  | 0 => fail
  | fuel + 1 => do
    match ← peek with
    | .item =>
      skip
      let item ← match ← peek with
        | .item | .key | .value | .closeBlock => pure Node.empty
        | _ => parseNode true false fuel
      return item :: (← parseInnerItems fuel)
    | _ => return []

/-- The fields of a block map, up to its end. -/
def parseBlockFields : Nat → Parse (List (Node × Node))
  | 0 => fail
  | fuel + 1 => do
    let part : Parse Node := do
      match ← peek with
      | .key | .value | .closeBlock => return Node.empty
      | _ => parseNode true true fuel
    let valuePart : Parse Node := do
      match ← peek with
      | .value => skip; part
      | _ => return Node.empty
    match ← peek with
    | .key =>
      skip
      let key ← part
      let value ← valuePart
      return (key, value) :: (← parseBlockFields fuel)
    | .closeBlock => skip; return []
    | _ => fail

/-- The items of a flow list, up to its end. A key makes an item a map of one field. -/
def parseFlowItems (isFirst : Bool) : Nat → Parse (List Node)
  | 0 => fail
  | fuel + 1 => do
    let atItem : Parse (List Node) := do
      match ← peek with
      | .closeFlowList => skip; return []
      | .key =>
        skip
        let field ← parseFlowPair fuel
        return .map {} [field] :: (← parseFlowItems false fuel)
      | _ =>
        let item ← parseNode false false fuel
        return item :: (← parseFlowItems false fuel)
    match ← peek with
    | .closeFlowList => skip; return []
    | .comma => if isFirst then fail else skip; atItem
    | _ => if isFirst then atItem else fail

/-- A field inside a flow list, whose key mark has been read. The token behind a key that is left
out is passed over. -/
def parseFlowPair : Nat → Parse (Node × Node)
  | 0 => fail
  | fuel + 1 => do
    let key ← match ← peek with
      | .value | .comma | .closeFlowList => skip; pure Node.empty
      | _ => parseNode false false fuel
    match ← peek with
    | .value =>
      skip
      match ← peek with
      | .comma | .closeFlowList => return (key, Node.empty)
      | _ => return (key, ← parseNode false false fuel)
    | _ => return (key, Node.empty)

/-- The fields of a flow map, up to its end. -/
def parseFlowFields (isFirst : Bool) : Nat → Parse (List (Node × Node))
  | 0 => fail
  | fuel + 1 => do
    let atField : Parse (List (Node × Node)) := do
      match ← peek with
      | .closeFlowMap => skip; return []
      | .key =>
        skip
        let key ← match ← peek with
          | .value | .comma | .closeFlowMap => pure Node.empty
          | _ => parseNode false false fuel
        let value ← match ← peek with
          | .value =>
            skip
            match ← peek with
            | .comma | .closeFlowMap => pure Node.empty
            | _ => parseNode false false fuel
          | _ => pure Node.empty
        return (key, value) :: (← parseFlowFields false fuel)
      | _ =>
        let key ← parseNode false false fuel
        return (key, Node.empty) :: (← parseFlowFields false fuel)
    match ← peek with
    | .closeFlowMap => skip; return []
    | .comma => if isFirst then fail else skip; atField
    | _ => if isFirst then atField else fail

end

/-! ## Documents -/

/-- Handles that need no directive. -/
def defaultHandles : List (String × String) := [("!", "!"), ("!!", "tag:yaml.org,2002:")]

/-- The directives of a document, each given at most once. -/
def parseDirectives (hasVersion : Bool) : Nat → Parse Unit
  | 0 => fail
  | fuel + 1 => do
    match ← peek with
    | .versionDirective major minor =>
      if hasVersion || major != 1 || (minor != 1 && minor != 2) then fail
      skip
      parseDirectives true fuel
    | .tagDirective handle expansion =>
      if ((← get).handles.lookup handle).isSome then fail
      modify fun r => { r with handles := r.handles ++ [(handle, expansion)] }
      skip
      parseDirectives hasVersion fuel
    | _ => return

/-- The root of the document that starts here. -/
def parseRoot (fuel : Nat) : Parse Node := do
  match ← peek with
  | .versionDirective _ _ | .tagDirective _ _ | .documentStart =>
    parseDirectives false fuel
    modify fun r => { r with handles := r.handles ++ defaultHandles }
    match ← peek with
    | .documentStart =>
      skip
      match ← peek with
      | .versionDirective _ _ | .tagDirective _ _ | .documentStart | .documentEnd | .finish =>
        return Node.empty
      | _ => parseNode true false fuel
    | _ => fail
  | _ =>
    modify fun r => { r with handles := defaultHandles }
    parseNode true false fuel

/-- What a text holds: nothing at all, or one document with this root. -/
def parseText (fuel : Nat) : Parse (Option Node) := do
  if let .finish ← peek then return none
  let root ← parseRoot fuel
  match (← get).tokens.dropWhile (· == .documentEnd) with
  | [.finish] => return some root
  | _ => fail

/-- The root of a text's only document, or nothing inside if the text has no document. -/
def read? (text : String) : Option (Option Node) := do
  let tokens ← tokens? text
  return (← (parseText (3 * tokens.length + 3)).run { tokens }).1

end UnitLedger.Yaml
