import Followup.Settings
import Followup.Text.Split

/-! The options of the worker. Each one may be given as an argument or by a variable of the
surroundings, of which the argument counts. -/

namespace Followup.Worker

open Text Settings

structure Options where
  tablesDir : Option String
  webhookUrl : Option String
  webhookTemplate : Option String
  webhookKinds : List String
  profile : String
deriving DecidableEq

inductive Invocation where
  | work (options : Options)
  | information
deriving DecidableEq

namespace Options

def variableNames : List (String × String) :=
  [("tables-dir", "TABLES_DIR"), ("webhook-url", "NOTIFY_WEBHOOK_URL"),
    ("webhook-template", "NOTIFY_WEBHOOK_TEMPLATE"), ("webhook-kinds", "NOTIFY_WEBHOOK_KINDS"),
    ("profile", "ESCALATOR_PROFILE")]

def long? (arg : String) : Option (String × Option String) :=
  match arg.toList with
  | '-' :: '-' :: cs =>
    match cut? '=' cs with
    | some (name, value) => some (String.ofList name, some (String.ofList value))
    | none => some (String.ofList cs, none)
  | _ => none

def isOption (arg : String) : Bool :=
  match arg.toList with
  | '-' :: _ :: _ => true
  | _ => false

def collect : List String → Option (Option (List (String × String)))
  | [] => some (some [])
  | ["--"] => some (some [])
  | arg :: args =>
    match long? arg with
    | some ("help", none) | some ("version", none) => some none
    | some (name, value) =>
      if (variableNames.lookup name).isNone then none
      else match value, args with
        | some v, args => (collect args).map fun r => r.map ((name, v) :: ·)
        | none, v :: args =>
          if isOption v then none else (collect args).map fun r => r.map ((name, v) :: ·)
        | none, [] => none
    | none =>
      match arg.toList with
      | '-' :: 'h' :: _ | '-' :: 'V' :: _ => some none
      | _ => none

def isRepeated (given : List (String × String)) : Bool :=
  variableNames.any fun (name, _) =>
    name ≠ "webhook-kinds" && 1 < given.countP fun (n, _) => n == name

def splitKinds (text : String) : List String := (split ',' text.toList).map String.ofList

def read? (args : List String) (env : Environment) : Option Invocation := do
  match ← collect args with
  | none => return .information
  | some given =>
    if isRepeated given then none
    let get (name : String) : Option String :=
      (given.lookup name).or ((variableNames.lookup name).bind fun v => env.lookup v)
    let kinds := (given.filter (·.1 == "webhook-kinds")).map Prod.snd
    let kinds := if kinds.isEmpty then (get "webhook-kinds").toList else kinds
    if get "tables-dir" = some "" then none
    return .work {
      tablesDir := get "tables-dir"
      webhookUrl := get "webhook-url"
      webhookTemplate := get "webhook-template"
      webhookKinds := kinds.flatMap splitKinds
      profile := (get "profile").getD "" }

end Options

end Followup.Worker
