import Followup.Template.Value

/-! A template as a tree: text, expressions to print, and the parts that are chosen or repeated. -/

namespace Followup.Template

inductive Operator where
  | add | sub | mul | div | floorDiv | rem | pow | join
  | eq | ne | lt | le | gt | ge
  | isIn
deriving DecidableEq

inductive Expr where
  | const (v : Value)
  | name (s : String)
  | attribute (e : Expr) (name : String)
  | item (e key : Expr)
  | slice (e start stop step : Expr)
  | call (callee : Expr) (args : List Expr)
  | named (name : String) (e : Expr)
  | filter (name : String) (e : Expr) (args : List Expr)
  | test (name : String) (e : Expr) (args : List Expr)
  | list (items : List Expr)
  | map (keys values : List Expr)
  | negate (e : Expr)
  | not (e : Expr)
  | binary (op : Operator) (a b : Expr)
  | both (a b : Expr)
  | either (a b : Expr)
  | choose (test yes no : Expr)

inductive Target where
  | one (name : String)
  | many (names : List String)
deriving DecidableEq

inductive Node where
  | text (s : String)
  | print (e : Expr)
  | branch (test : Expr) (yes no : List Node)
  /-- Repeats the body for the items that the guard lets pass; without any, the rest is shown. -/
  | repeated (target : Target) (source guard : Expr) (body empty : List Node)
  | assign (target : Target) (e : Expr)
  | capture (name : String) (e : Expr) (body : List Node)
  | other (name : Expr) (isOptional : Bool)
  | scope (targets : List Target) (values : List Expr) (body : List Node)

end Followup.Template
