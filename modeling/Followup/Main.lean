import Followup.Engine.Service
import Followup.Worker.EnvFile
import Followup.Worker.Session
import Followup.Worker.Startup
import Std.Time.DateTime.Timestamp

/-! The worker as a program: requests on standard input, one answer a line on standard output, and
what happens meanwhile on standard error. There is no network here, so webhooks are refused. -/

namespace Followup.Main

open Worker

def clock : IO Instant := do
  return Reading.ofNanos (← Std.Time.Timestamp.now).toNanosecondsSinceUnixEpoch.val

def freshId : IO CaseId := do
  let bytes ← IO.getRandomBytes 16
  return .ofRandom (bytes.toList.foldl (fun n b => n * 256 + b.toNat) 0)

def text? (path : String) : IO (Option String) := do
  try return some (← IO.FS.readFile path) catch _ => return none

def words (text : String) : List String :=
  (Text.wordsOf (text.toList.map fun c => if EnvFile.isKeyPart c then c else ' ')).map String.ofList

def lookUp (names : List String) : IO Settings.Environment := do
  let found ← names.eraseDups.mapM fun name => do
    return (← IO.getEnv name).map (name, ·)
  return found.filterMap id

def environment (args : List String) : IO Settings.Environment := do
  let file := (← text? ".env").getD ""
  let fixed := Settings.keys ++ Options.variableNames.map Prod.snd
  let env := EnvFile.load (← lookUp (fixed ++ words file)) file
  let texts := args ++ env.map Prod.snd
  let profiles := texts.flatMap fun t => Settings.keys.map fun key => Text.uppered t ++ "_" ++ key
  let more ← lookUp (texts.flatMap words ++ profiles)
  return EnvFile.load (env ++ more.filter fun (k, _) => (env.lookup k).isNone) file

def entries : (depth : Nat) → (path : String) → IO (List FileTree)
  | 0, _ => return []
  | depth + 1, path => do
    let found ← (← IO.FS.realPath path).readDir
    found.toList.mapM fun e => do
      if ← e.path.isDir then
        try return .folder e.fileName (← entries depth (path ++ "/" ++ e.fileName))
        catch _ => return .locked e.fileName
      else return .file e.fileName (← text? (path ++ "/" ++ e.fileName))

def tables (o : Options) (env : Settings.Environment) : IO (List FileTree) := do
  match (settingsOf o env).run with
  | .ok (.ok settings) =>
    match settings.tablesDir with
    | some path =>
      try return FileTree.ofFolder path (← entries 64 path) catch _ => return []
    | none => return []
  | _ => return []

def report (h : Handling) : IO Unit := do
  for d in h.deliveries do
    let outcome := (d.error.map NoticeError.message).getD "delivered"
    IO.eprintln s!"notice of {d.caseId} by {d.channel.name}: {outcome}"
  if let some e := h.ending then
    IO.eprintln s!"workflow of {e.id.write} resumed: {e.outcome.name}"

def withoutBreak (line : String) : String :=
  match line.toList.reverse with
  | '\n' :: '\x0d' :: cs | '\n' :: cs => String.ofList cs.reverse
  | _ => line

partial def serve (s : Service) (validation : Table) : IO UInt32 := do
  let line ← (← IO.getStdin).getLine
  if line.isEmpty then return 0
  let now ← clock
  let id ← freshId
  let elapsed := ((now.since s.startedAt).wholeMillis).toNat
  let step : Checked (Service × Except EngineError (Option Response)) := do
    let s ← s.sleep (elapsed - s.elapsed)
    s.operate fun e => do
      let (session, response) ← Session.answer ⟨e, validation⟩ now id (withoutBreak line)
      return (session.engine, .ok response)
  match step with
  | .error _ => return 101
  | .ok (t, response) =>
    (t.handlings.drop s.handlings.length).forM report
    if let .ok (some r) := response then
      let output ← IO.getStdout
      output.putStrLn (responseJson r).write
      output.flush
    serve t validation

def run (o : Options) (env : Settings.Environment) : IO UInt32 := do
  match (setUp o env (← tables o env) (fun _ => .refused) (← clock)).run with
  | .error _ => return 101
  | .ok (.error e) =>
    IO.eprintln s!"Error: {e.message}"
    return 1
  | .ok (.ok setup) =>
    setup.engine.settings.summary.forM fun line => IO.eprintln line
    serve (.create ⟨setup.dispatcher, .log⟩ setup.engine true true) setup.validation

end Followup.Main

def main (args : List String) : IO UInt32 := do
  let env ← Followup.Main.environment args
  match Followup.Worker.Options.read? args env with
  | none =>
    IO.eprintln "error: these arguments make no sense"
    return 2
  | some .information =>
    IO.println "Answers requests about escalations, one JSON value a line."
    return 0
  | some (.work o) => Followup.Main.run o env
