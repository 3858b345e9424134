import Followup.Notice.Basic
import Followup.Text.Split

/-! References to variables in a text, such as `${NAME}`. Each is replaced by the value of the
variable, which is not looked into again. -/

namespace Followup.Reference

open Text

inductive Failure where
  | unclosed
  | unset (name : String)
deriving DecidableEq

def resolveAll (env : String → Option String) (cs : List Char) : Except Failure (List Char) :=
  match cs with
  | [] => .ok []
  | '$' :: '\x7b' :: cs =>
    match _h : cut? '\x7d' cs with
    | none => .error .unclosed
    | some (name, rest) =>
      match env (String.ofList name) with
      | none => .error (.unset (String.ofList name))
      | some value => (resolveAll env rest).map (value.toList ++ ·)
  | c :: cs => (resolveAll env cs).map (c :: ·)
termination_by cs.length
decreasing_by
  · have := length_of_cut? _h
    simp only [List.length_cons]
    omega
  · simp

def Failure.toError (text : String) : Failure → NoticeError
  | unclosed => .config s!"unclosed env var reference in: {text}"
  | unset name => .config s!"env var not found: {name}"

def resolve (env : String → Option String) (text : String) : Except NoticeError String :=
  match resolveAll env text.toList with
  | .ok cs => .ok (String.ofList cs)
  | .error e => .error (e.toError text)

end Followup.Reference
