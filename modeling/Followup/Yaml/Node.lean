import Followup.Yaml.Token

/-! The tree of a YAML document. A text that stops making sense still gives the tree up to that
place, which `cut` marks, because what the tree says before it may be reported first. References
are replaced by what they name. -/

namespace Followup.Yaml

structure Scalar where
  text : String
  style : Style
  tag : Option String
deriving DecidableEq

inductive Node where
  | scalar (s : Scalar)
  | sequence (tag : Option String) (items : List Node)
  | mapping (tag : Option String) (entries : List (Node × Node))
  | void
  | cut
  | loop

namespace Node

def blank : Node := scalar ⟨"", .plain, none⟩

/-- The state of reading: the tokens to come, the anchors with the number that each name has now,
the nodes by number, and the tag handles. -/
structure Walk where
  tokens : List Token
  anchors : List (String × Nat)
  nodes : List (Nat × Node)
  handles : List (String × String)

namespace Walk

def peek (w : Walk) : Token := w.tokens.head?.getD .broken
def skip (w : Walk) : Walk := { w with tokens := w.tokens.drop 1 }
def fail (w : Walk) : Walk := { w with tokens := [] }

def name (w : Walk) : Option String → Walk
  | some name => { w with anchors := (name, w.anchors.length) :: w.anchors }
  | none => w

def keep (w : Walk) (number : Nat) (anchor : Option String) (node : Node) : Walk :=
  if anchor.isSome then { w with nodes := (number, node) :: w.nodes } else w

def resolve? (w : Walk) (handle rest : String) : Option String :=
  if handle = "" then some rest else (w.handles.lookup handle).map (· ++ rest)

def properties (w : Walk) : Option String × Option (String × String) × Walk :=
  match w.peek with
  | .anchor a =>
    match w.skip.peek with
    | .tag h r => (some a, some (h, r), w.skip.skip)
    | _ => (some a, none, w.skip)
  | .tag h r =>
    match w.skip.peek with
    | .anchor a => (some a, some (h, r), w.skip.skip)
    | _ => (none, some (h, r), w.skip)
  | _ => (none, none, w)

end Walk

def endsBlockEntry : Token → Bool
  | .blockEntry | .blockEnd => true
  | _ => false

def endsBareEntry : Token → Bool
  | .blockEntry | .key | .value | .blockEnd => true
  | _ => false

def endsBlockPart : Token → Bool
  | .key | .value | .blockEnd => true
  | _ => false

def endsFlowItem : Token → Bool
  | .flowEntry | .flowSequenceEnd => true
  | _ => false

def endsFlowPart : Token → Bool
  | .flowEntry | .flowMappingEnd => true
  | _ => false

mutual

/-- Reads a node. Blocks may begin only where `inBlock` says so, and entries without indentation
of their own only where `bare` does. -/
def read (inBlock bare : Bool) : (fuel : Nat) → Walk → Node × Walk
  | 0, w => (cut, w.fail)
  | fuel + 1, w =>
    match w.peek with
    | .reference name =>
      match w.anchors.lookup name with
      | some number => ((w.nodes.lookup number).getD loop, w.skip)
      | none => (cut, w.fail)
    | _ =>
      let (anchor, tag?, w) := w.properties
      let resolved : Option (Option String) := match tag? with
        | none => some none
        | some (handle, rest) => (w.resolve? handle rest).map some
      match resolved with
      | none => (cut, w.fail)
      | some tag =>
        let number := w.anchors.length
        let named := w.name anchor
        let collection (make : List Node → Node) (r : List Node × Walk) : Node × Walk :=
          (make r.1, r.2.keep number anchor (make r.1))
        let pairs (r : List (Node × Node) × Walk) : Node × Walk :=
          (mapping tag r.1, r.2.keep number anchor (mapping tag r.1))
        match w.peek with
        | .scalar text style =>
          let node := scalar ⟨text, style, if tag = some "!" then none else tag⟩
          (node, named.skip.keep number anchor node)
        | .flowSequenceStart => collection (sequence tag) (flowItems true fuel named.skip)
        | .flowMappingStart => pairs (flowPairs true fuel named.skip)
        | .sequenceStart =>
          if inBlock then collection (sequence tag) (blockItems fuel named.skip) else (cut, w.fail)
        | .mappingStart =>
          if inBlock then pairs (blockPairs fuel named.skip) else (cut, w.fail)
        | .blockEntry =>
          if bare then collection (sequence tag) (bareItems fuel named)
          else if (anchor.isSome || tag.isSome) then
            let node := scalar ⟨"", .plain, tag⟩
            (node, named.keep number anchor node)
          else (cut, w.fail)
        | .broken => (cut, w.fail)
        | _ =>
          if (anchor.isSome || tag.isSome) then
            let node := scalar ⟨"", .plain, tag⟩
            (node, named.keep number anchor node)
          else (cut, w.fail)

def blockItems : (fuel : Nat) → Walk → List Node × Walk
  | 0, w => ([cut], w.fail)
  | fuel + 1, w =>
    match w.peek with
    | .blockEntry =>
      let w := w.skip
      let (item, w) := if endsBlockEntry w.peek then (blank, w) else read true false fuel w
      let (items, w) := blockItems fuel w
      (item :: items, w)
    | .blockEnd => ([], w.skip)
    | _ => ([cut], w.fail)

def bareItems : (fuel : Nat) → Walk → List Node × Walk
  | 0, w => ([cut], w.fail)
  | fuel + 1, w =>
    match w.peek with
    | .blockEntry =>
      let w := w.skip
      let (item, w) := if endsBareEntry w.peek then (blank, w) else read true false fuel w
      let (items, w) := bareItems fuel w
      (item :: items, w)
    | .broken => ([cut], w.fail)
    | _ => ([], w)

def blockPairs : (fuel : Nat) → Walk → List (Node × Node) × Walk
  | 0, w => ([(cut, cut)], w.fail)
  | fuel + 1, w =>
    match w.peek with
    | .key =>
      let w := w.skip
      let (key, w) := if endsBlockPart w.peek then (blank, w) else read true true fuel w
      let (value, w) := match w.peek with
        | .value =>
          let w := w.skip
          if endsBlockPart w.peek then (blank, w) else read true true fuel w
        | .broken => (cut, w)
        | _ => (blank, w)
      let (entries, w) := blockPairs fuel w
      ((key, value) :: entries, w)
    | .blockEnd => ([], w.skip)
    | _ => ([(cut, cut)], w.fail)

def flowItems (first : Bool) : (fuel : Nat) → Walk → List Node × Walk
  | 0, w => ([cut], w.fail)
  | fuel + 1, w =>
    match first, w.peek with
    | _, .flowSequenceEnd => ([], w.skip)
    | true, _ => flowItem fuel w
    | false, .flowEntry => flowItem fuel w.skip
    | false, _ => ([cut], w.fail)

def flowItem : (fuel : Nat) → Walk → List Node × Walk
  | 0, w => ([cut], w.fail)
  | fuel + 1, w =>
    match w.peek with
    | .flowSequenceEnd => ([], w.skip)
    | .key =>
      let w := w.skip
      let (key, w) := match w.peek with
        | .value | .flowEntry | .flowSequenceEnd => (blank, w.skip)
        | _ => read false false fuel w
      let (value, w) := match w.peek with
        | .value =>
          let w := w.skip
          if endsFlowItem w.peek then (blank, w) else read false false fuel w
        | .broken => (cut, w)
        | _ => (blank, w)
      let (items, w) := flowItems false fuel w
      (mapping none [(key, value)] :: items, w)
    | _ =>
      let (item, w) := read false false fuel w
      let (items, w) := flowItems false fuel w
      (item :: items, w)

def flowPairs (first : Bool) : (fuel : Nat) → Walk → List (Node × Node) × Walk
  | 0, w => ([(cut, cut)], w.fail)
  | fuel + 1, w =>
    match first, w.peek with
    | _, .flowMappingEnd => ([], w.skip)
    | true, _ => flowPair fuel w
    | false, .flowEntry => flowPair fuel w.skip
    | false, _ => ([(cut, cut)], w.fail)

def flowPair : (fuel : Nat) → Walk → List (Node × Node) × Walk
  | 0, w => ([(cut, cut)], w.fail)
  | fuel + 1, w =>
    match w.peek with
    | .flowMappingEnd => ([], w.skip)
    | .key =>
      let w := w.skip
      let (key, w) := match w.peek with
        | .value | .flowEntry | .flowMappingEnd => (blank, w)
        | _ => read false false fuel w
      let (value, w) := match w.peek with
        | .value =>
          let w := w.skip
          if endsFlowPart w.peek then (blank, w) else read false false fuel w
        | .broken => (cut, w)
        | _ => (blank, w)
      let (entries, w) := flowPairs false fuel w
      ((key, value) :: entries, w)
    | _ =>
      let (key, w) := read false false fuel w
      let value := match w.peek with
        | .broken => cut
        | _ => blank
      let (entries, w) := flowPairs false fuel w
      ((key, value) :: entries, w)

end

end Node

structure Document where
  root : Node
  whole : Bool

namespace Document

def standardHandles : List (String × String) := [("!", "!"), ("!!", "tag:yaml.org,2002:")]

def directives (version : Bool) (handles : List (String × String)) :
    List Token → Option (List (String × String) × List Token)
  | .version major minor :: rest =>
    if version ∨ major ≠ 1 ∨ (minor ≠ 1 ∧ minor ≠ 2) then none else directives true handles rest
  | .tagHandle handle uri :: rest =>
    if (handles.lookup handle).isSome then none
    else directives version (handles ++ [(handle, uri)]) rest
  | tokens => some (handles, tokens)

def endsText : List Token → Bool
  | .documentEnd :: rest => endsText rest
  | .streamEnd :: _ => true
  | _ => false

def finish (r : Node × Node.Walk) : Document := ⟨r.1, endsText r.2.tokens⟩

def content (handles : List (String × String)) (tokens : List Token) : Document :=
  let w : Node.Walk := ⟨tokens, [], [], handles ++ standardHandles⟩
  match w.peek with
  | .version .. | .tagHandle .. | .documentStart | .documentEnd | .streamEnd => finish (.blank, w)
  | _ => finish (Node.read true false (3 * tokens.length + 8) w)

def ofTokens (tokens : List Token) : Document :=
  match tokens with
  | .streamEnd :: _ => ⟨.void, true⟩
  | .version .. :: _ | .tagHandle .. :: _ | .documentStart :: _ =>
    match directives false [] tokens with
    | some (handles, .documentStart :: rest) => content handles rest
    | _ => ⟨.cut, false⟩
  | _ =>
    finish (Node.read true false (3 * tokens.length + 8) ⟨tokens, [], [], standardHandles⟩)

def ofText (text : String) : Document := ofTokens (Token.ofText text)

end Document

end Followup.Yaml
