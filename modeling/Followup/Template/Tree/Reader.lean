import Followup.Template.Token
import Followup.Template.Tree

/-! Reading the tree of a template from its tokens. Every step either takes a token or goes to the
next tighter kind of expression, of which there are fewer than sixteen, so the number of tokens
bounds the steps. -/

namespace Followup.Template

abbrev Reader := StateT (List Token) Option

namespace Reader

def atSign (s : String) : List Token → Bool
  | .sign t :: _ => s == t
  | _ => false

def atName (s : String) : List Token → Bool
  | .name t :: _ => s == t
  | _ => false

def skipSign (s : String) : Reader Bool := do
  let ts ← get
  if atSign s ts then
    set (ts.drop 1)
    return true
  return false

def skipName (s : String) : Reader Bool := do
  let ts ← get
  if atName s ts then
    set (ts.drop 1)
    return true
  return false

def sign (s : String) : Reader Unit := do
  if ← skipSign s then return () else failure

def word (s : String) : Reader Unit := do
  if ← skipName s then return () else failure

def anyName : Reader String := do
  match ← get with
  | .name s :: ts =>
    set ts
    return s
  | _ => failure

def skipAnyName : Reader Unit := do
  match ← get with
  | .name _ :: ts => set ts
  | _ => return

def closeTag : Reader Unit := do
  match ← get with
  | .closeTag :: ts => set ts
  | _ => failure

def operators : (level : Nat) → List (Token × Operator)
  | 3 => [(.sign "==", .eq), (.sign "!=", .ne), (.sign "<", .lt), (.sign "<=", .le), (.sign ">", .gt),
      (.sign ">=", .ge), (.name "in", .isIn)]
  | 4 => [(.sign "+", .add), (.sign "-", .sub)]
  | 5 => [(.sign "~", .join)]
  | 6 => [(.sign "*", .mul), (.sign "/", .div), (.sign "//", .floorDiv), (.sign "%", .rem)]
  | 7 => [(.sign "**", .pow)]
  | _ => []

def sameToken : Token → Token → Bool
  | .sign a, .sign b | .name a, .name b => a == b
  | _, _ => false

def operator? (level : Nat) (ts : List Token) : Option ((Expr → Expr → Expr) × List Token) :=
  match level, ts with
  | 0, .name "or" :: ts => some (.either, ts)
  | 1, .name "and" :: ts => some (.both, ts)
  | 3, .name "not" :: .name "in" :: ts => some (fun a b => .not (.binary .isIn a b), ts)
  | level, t :: ts =>
    ((operators level).find? fun (u, _) => sameToken u t).map fun (_, op) => (.binary op, ts)
  | _, [] => none

def notLevel : Nat := 2
def tightest : Nat := 8

def constant? : String → Option Value
  | "true" | "True" => some (.truth true)
  | "false" | "False" => some (.truth false)
  | "none" | "None" => some .none
  | _ => none

def startsArgument : Token → Bool
  | .name s => !(["and", "or", "else", "is"].contains s)
  | .text _ | .whole _ | .decimal _ => true
  | .sign s => ["+", "-", "[", "\x7b"].contains s
  | _ => false

mutual

def expr : (steps : Nat) → Reader Expr
  | 0 => failure
  | steps + 1 => do choices steps (← climb steps 0)

def choices : (steps : Nat) → Expr → Reader Expr
  | 0, _ => failure
  | steps + 1, e => do
    if ← skipName "if" then
      let test ← climb steps 0
      let no ← if ← skipName "else" then expr steps else pure (.const .undefined)
      choices steps (.choose test e no)
    else return e

def climb : (steps level : Nat) → Reader Expr
  | 0, _ => failure
  | steps + 1, level => do
    if level = tightest then filtered steps (← postfixed steps (← signed steps))
    else if level = notLevel then
      if ← skipName "not" then return .not (← climb steps level)
      climb steps (level + 1)
    else climbRest steps level (← climb steps (level + 1))

def climbRest : (steps level : Nat) → Expr → Reader Expr
  | 0, _, _ => failure
  | steps + 1, level, a => do
    match operator? level (← get) with
    | some (join, ts) =>
      set ts
      climbRest steps level (join a (← climb steps (level + 1)))
    | none =>
      if level = 3 ∧ atName "not" (← get) then failure
      return a

def signed : (steps : Nat) → Reader Expr
  | 0 => failure
  | steps + 1 => do
    if ← skipSign "-" then return .negate (← signed steps)
    primary steps

def postfixed : (steps : Nat) → Expr → Reader Expr
  | 0, _ => failure
  | steps + 1, e => do
    if ← skipSign "." then postfixed steps (.attribute e (← anyName))
    else if ← skipSign "[" then postfixed steps (← subscript steps e)
    else if ← skipSign "(" then postfixed steps (.call e (← arguments steps))
    else return e

def subscript : (steps : Nat) → Expr → Reader Expr
  | 0, _ => failure
  | steps + 1, e => do
    let start ← bound steps
    if ← skipSign ":" then
      let stop ← bound steps
      let step ← if ← skipSign ":" then bound steps else pure none
      sign "]"
      let given (x : Option Expr) : Expr := x.getD (.const .none)
      return .slice e (given start) (given stop) (given step)
    sign "]"
    match start with
    | some key => return .item e key
    | none => failure

def bound : (steps : Nat) → Reader (Option Expr)
  | 0 => failure
  | steps + 1 => do
    let ts ← get
    if atSign ":" ts || atSign "]" ts then return none
    return some (← expr steps)

def filtered : (steps : Nat) → Expr → Reader Expr
  | 0, _ => failure
  | steps + 1, e => do
    if ← skipSign "|" then
      let name ← anyName
      let args ← if ← skipSign "(" then arguments steps else pure []
      filtered steps (.filter name e args)
    else if ← skipName "is" then
      let negated ← skipName "not"
      let name ← anyName
      let args ← if ← skipSign "(" then arguments steps
        else match ← get with
          | t :: _ => do
            if startsArgument t then pure [← postfixed steps (← signed steps)] else pure []
          | [] => pure []
      let e := .test name e args
      filtered steps (if negated then .not e else e)
    else return e

def arguments : (steps : Nat) → Reader (List Expr)
  | 0 => failure
  | steps + 1 => do
    if ← skipSign ")" then return []
    let arg ← match ← get with
      | .name s :: .sign "=" :: ts => do
        set ts
        pure (.named s (← expr steps))
      | _ => expr steps
    if ← skipSign "," then return arg :: (← arguments steps)
    sign ")"
    return [arg]

def items : (steps : Nat) → (closing : String) → Reader (List Expr × Bool)
  | 0, _ => failure
  | steps + 1, closing => do
    if ← skipSign closing then return ([], false)
    let e ← expr steps
    if ← skipSign "," then return (e :: (← items steps closing).1, true)
    sign closing
    return ([e], false)

def entries : (steps : Nat) → Reader (List Expr × List Expr)
  | 0 => failure
  | steps + 1 => do
    if ← skipSign "\x7d" then return ([], [])
    let key ← expr steps
    sign ":"
    let value ← expr steps
    if ← skipSign "," then
      let (keys, values) ← entries steps
      return (key :: keys, value :: values)
    sign "\x7d"
    return ([key], [value])

def primary : (steps : Nat) → Reader Expr
  | 0 => failure
  | steps + 1 => do
    match ← get with
    | .name s :: ts =>
      set ts
      match constant? s with
      | some v => return .const v
      | none => return .name s
    | .text s :: ts =>
      set ts
      return .const (.text s)
    | .whole n :: ts =>
      set ts
      return .const (.whole n)
    | .decimal x :: ts =>
      set ts
      return .const (.decimal x)
    | .sign "(" :: ts =>
      set ts
      match ← items steps ")" with
      | ([e], false) => return e
      | (es, _) => return .list es
    | .sign "[" :: ts =>
      set ts
      return .list (← items steps "]").1
    | .sign "\x7b" :: ts =>
      set ts
      let (keys, values) ← entries steps
      return .map keys values
    | _ => failure

end

def targetName : Reader String := do
  let s ← anyName
  if (constant? s).isSome ∨ s = "loop" ∨ s = "self" then failure
  return s

def targetNames : (steps : Nat) → Reader (List String × Bool)
  | 0 => failure
  | steps + 1 => do
    let s ← targetName
    if ← skipSign "," then
      match ← get with
      | .name t :: _ => if t = "in" then return ([s], true) else return (s :: (← targetNames steps).1, true)
      | _ => return ([s], true)
    return ([s], false)

def target (steps : Nat) : Reader Target := do
  if ← skipSign "(" then
    let (names, _) ← targetNames steps
    sign ")"
    return .many names
  match ← targetNames steps with
  | ([s], false) => return .one s
  | (names, _) => return .many names

def bindings : (steps : Nat) → Reader (List Target × List Expr)
  | 0 => failure
  | steps + 1 => do
    match ← get with
    | .closeTag :: ts =>
      set ts
      return ([], [])
    | _ =>
      let t := Target.one (← targetName)
      sign "="
      let e ← expr steps
      discard (skipSign ",")
      let (targets, values) ← bindings steps
      return (t :: targets, e :: values)

mutual

def nodes : (steps : Nat) → (closings : List String) → Reader (List Node × String)
  | 0, _ => failure
  | steps + 1, closings => do
    match ← get with
    | [] => if closings.isEmpty then return ([], "") else failure
    | .data s :: ts =>
      set ts
      let (ns, closing) ← nodes steps closings
      return (.text s :: ns, closing)
    | .openPrint :: ts =>
      set ts
      let e ← expr (16 * ts.length + 16)
      match ← get with
      | .closePrint :: ts =>
        set ts
        let (ns, closing) ← nodes steps closings
        return (.print e :: ns, closing)
      | _ => failure
    | .openTag :: .name word :: ts =>
      set ts
      if closings.contains word then return ([], word)
      let n ← tag steps word (16 * ts.length + 16)
      let (ns, closing) ← nodes steps closings
      return (n :: ns, closing)
    | _ => failure

def tag : (steps : Nat) → (word : String) → (size : Nat) → Reader Node
  | 0, _, _ => failure
  | steps + 1, kind, size => do
    match kind with
    | "if" => branch steps size
    | "for" =>
      let t ← target size
      word "in"
      let source ← climb size 0
      let guard ← if ← skipName "if" then expr size else pure (.const (.truth true))
      closeTag
      let (body, closing) ← nodes steps ["else", "endfor"]
      closeTag
      if closing = "endfor" then return .repeated t source guard body []
      let (empty, _) ← nodes steps ["endfor"]
      closeTag
      return .repeated t source guard body empty
    | "set" =>
      let t ← target size
      if ← skipSign "=" then
        let e ← expr size
        closeTag
        return .assign t e
      match t with
      | .one name =>
        let e ← filtered size (.name name)
        closeTag
        let (body, _) ← nodes steps ["endset"]
        closeTag
        return .capture name e body
      | .many _ => failure
    | "filter" =>
      let name ← anyName
      let args ← if ← skipSign "(" then arguments size else pure []
      let e ← filtered size (.filter name (.name "") args)
      closeTag
      let (body, _) ← nodes steps ["endfilter"]
      closeTag
      return .scope [] [] [.capture "" e body, .print (.name "")]
    | "block" =>
      discard targetName
      closeTag
      let (body, _) ← nodes steps ["endblock"]
      skipAnyName
      closeTag
      return .scope [] [] body
    | "include" | "extends" =>
      let name ← expr size
      let isOptional ← if ← skipName "ignore" then
          word "missing"
          pure true
        else pure false
      closeTag
      return .other name isOptional
    | "with" =>
      let (targets, values) ← bindings size
      let (body, _) ← nodes steps ["endwith"]
      closeTag
      return .scope targets values body
    | _ => failure

def branch : (steps : Nat) → (size : Nat) → Reader Node
  | 0, _ => failure
  | steps + 1, size => do
    let test ← expr size
    closeTag
    let (yes, closing) ← nodes steps ["elif", "else", "endif"]
    if closing = "elif" then return .branch test yes [← branch steps size]
    closeTag
    if closing = "endif" then return .branch test yes []
    let (no, _) ← nodes steps ["endif"]
    closeTag
    return .branch test yes no

end

end Reader

def read? (text : String) : Option (List Node) := do
  let ts ← Token.ofText? text
  let ((ns, _), _) ← (Reader.nodes (3 * ts.length + 3) []).run ts
  return ns

end Followup.Template
