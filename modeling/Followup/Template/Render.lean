import Followup.Template.Filter

/-! What a template shows. Names are looked up from the innermost scope outwards, so a text that
comes from a value is shown as it is and never read as a template. -/

namespace Followup.Template

abbrev Scopes := List (List (String × Value))

namespace Scopes

def lookup (scopes : Scopes) (name : String) : Value :=
  (scopes.findSome? fun scope => scope.lookup name).getD .undefined

def assign (scopes : Scopes) (name : String) (v : Value) : Scopes :=
  match scopes with
  | [] => [[(name, v)]]
  | scope :: outer => ((name, v) :: scope) :: outer

def assignAll? (scopes : Scopes) : List String → List Value → Option Scopes
  | [], [] => some scopes
  | n :: ns, v :: vs => assignAll? (scopes.assign n v) ns vs
  | _, _ => none

def bind? (scopes : Scopes) (target : Target) (v : Value) : Option Scopes :=
  match target with
  | .one name => some (scopes.assign name v)
  | .many names => v.items?.bind (scopes.assignAll? names)

end Scopes

mutual

def Expr.eval? (scopes : Scopes) : Expr → Option Value
  | .const v => some v
  | .name s => some (scopes.lookup s)
  | .attribute e name => do (← e.eval? scopes).attribute? name
  | .item e key => do (← e.eval? scopes).item? (← key.eval? scopes)
  | .slice e start stop step => do
    (← e.eval? scopes).slice? (← start.eval? scopes) (← stop.eval? scopes) (← step.eval? scopes)
  | .call (.name f) args => do call? f (← evalAll? scopes args)
  | .call _ _ => none
  | .named _ _ => none
  | .filter name e args => do Filter.result? name (← e.eval? scopes) (← evalAll? scopes args)
  | .test name e args => do
    return .truth (← Test.result? name (← e.eval? scopes) (← evalAll? scopes args))
  | .list items => do return .list (← evalAll? scopes items)
  | .map keys values => do
    return .mapOf ((← evalAll? scopes keys).zip (← evalAll? scopes values))
  | .negate e => do (← e.eval? scopes).negate?
  | .not e => do return .truth (!(← e.eval? scopes).holds)
  | .binary op a b => do op.result? (← a.eval? scopes) (← b.eval? scopes)
  | .both a b => do
    let v ← a.eval? scopes
    if v.holds then b.eval? scopes else return v
  | .either a b => do
    let v ← a.eval? scopes
    if v.holds then return v else b.eval? scopes
  | .choose test yes no => do
    if (← test.eval? scopes).holds then yes.eval? scopes else no.eval? scopes

def evalAll? (scopes : Scopes) : List Expr → Option (List Value)
  | [] => some []
  | e :: es => do return (← e.eval? scopes) :: (← evalAll? scopes es)

end

def loopRecord (items : List Value) (i : Nat) : Value :=
  let n := items.length
  .record [("index", .whole (i + 1)), ("index0", .whole i), ("length", .whole n),
    ("revindex", .whole (n - i)), ("revindex0", .whole (n - i - 1)), ("first", .truth (i == 0)),
    ("last", .truth (i + 1 == n)),
    ("previtem", if i = 0 then .undefined else items[i - 1]?.getD .undefined),
    ("nextitem", items[i + 1]?.getD .undefined)]

def guarded? (scopes : Scopes) (target : Target) (guard : Expr) :
    List Value → Option (List Value)
  | [] => some []
  | v :: vs => do
    let test ← guard.eval? (← Scopes.bind? ([] :: scopes) target v)
    let rest ← guarded? scopes target guard vs
    return if test.holds then v :: rest else rest

mutual

def Node.show? (scopes : Scopes) : Node → Option (String × Scopes)
  | .text s => some (s, scopes)
  | .print e => do return ((← e.eval? scopes).write, scopes)
  | .branch test yes no => do
    if (← test.eval? scopes).holds then showAll? scopes yes else showAll? scopes no
  | .repeated target source guard body empty => do
    let items ← guarded? scopes target guard (← (← source.eval? scopes).items?)
    if items.isEmpty then return ((← showAll? ([] :: scopes) empty).1, scopes)
    let shown ← items.zipIdx.mapM fun (v, i) => do
      let inner ← Scopes.bind? ([("loop", loopRecord items i)] :: scopes) target v
      return (← showAll? inner body).1
    return (String.join shown, scopes)
  | .assign target e => do return ("", ← scopes.bind? target (← e.eval? scopes))
  | .capture name e body => do
    let s := Value.text (← showAll? ([] :: scopes) body).1
    return ("", scopes.assign name (← e.eval? (scopes.assign name s)))
  | .other name isOptional => do
    let _ ← name.eval? scopes
    if isOptional then return ("", scopes) else failure
  | .scope targets values body => do
    let values ← evalAll? scopes values
    let inner ← (targets.zip values).foldlM
      (fun (inner : Scopes) (t, v) => inner.bind? t v) ([] :: scopes)
    return ((← showAll? inner body).1, scopes)

def showAll? (scopes : Scopes) : List Node → Option (String × Scopes)
  | [] => some ("", scopes)
  | n :: ns => do
    let (s, scopes) ← n.show? scopes
    let (t, scopes) ← showAll? scopes ns
    return (s ++ t, scopes)

end

def render? (template : List Node) (context : List (String × Value)) : Option String :=
  (showAll? [context] template).map Prod.fst

end Followup.Template
