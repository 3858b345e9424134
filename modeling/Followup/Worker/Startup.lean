import Followup.Engine.Operations
import Followup.Notice.Webhook
import Followup.Rules.Catalog
import Followup.Worker.Options

/-! Setting up the worker: its settings, its tables, its engine and its channels. The first thing
that is wrong is the one that is reported. -/

namespace Followup.Worker

open Settings

inductive StartupError where
  | setting (cause : SettingError)
  | rules (cause : RuleError)
  | name (cause : UnknownName)
  | notice (cause : NoticeError)
deriving DecidableEq

def StartupError.message : StartupError → String
  | setting cause => cause.message
  | rules cause => cause.message
  | name cause => cause.message
  | notice cause => cause.message

def settingsOf (o : Options) (env : Environment) : Fallible SettingError Settings := do
  let settings ← Settings.ofProfile env o.profile
  return { settings with tablesDir := o.tablesDir.or settings.tablesDir }

def catalogOf (settings : Settings) (files : List FileTree) : Except RuleError Catalog :=
  match settings.tablesDir with
  | none => .ok .builtin
  | some path => (Catalog.builtin.loadFolder files path).map Prod.fst

def channelsOf (o : Options) (env : Environment) (network : WebRequest → Reply) (url : String) :
    Except StartupError (List Channel) :=
  match Webhook.create (fun k => env.lookup k) url none [] o.webhookTemplate with
  | .ok w => .ok [.log, w.channel network]
  | .error e => .error (.notice e)

def withKinds (o : Options) (env : Environment) (network : WebRequest → Reply) (url : String) :
    List String → Dispatcher → Except StartupError Dispatcher
  | [], d => .ok d
  | text :: texts, d => do
    let kind ← match NoticeKind.ofName text with
      | .ok kind => pure kind
      | .error e => throw (.name e)
    withKinds o env network url texts (d.setKind kind.name (← channelsOf o env network url))

def dispatcherOf (o : Options) (env : Environment) (network : WebRequest → Reply) :
    Except StartupError Dispatcher :=
  match o.webhookUrl, o.webhookKinds with
  | none, _ => .ok (.withDefault [.log])
  | some url, [] => (channelsOf o env network url).map Dispatcher.withDefault
  | some url, kinds => withKinds o env network url kinds (.withDefault [.log])

structure Setup where
  engine : Engine
  validation : Table
  dispatcher : Dispatcher

def ofSetting {α : Type} (r : Fallible SettingError α) : Fallible StartupError α :=
  ExceptT.mk (r.run.map fun r => r.mapError StartupError.setting)

def ofRules {α : Type} (r : Except RuleError α) : Except StartupError α := r.mapError .rules

def setUp (o : Options) (env : Environment) (files : List FileTree) (network : WebRequest → Reply)
    (now : Instant) : Fallible StartupError Setup := do
  let settings ← ofSetting (settingsOf o env)
  let catalog ← ofRules (catalogOf settings files)
  let action ← ofRules (catalog.require Table.notificationAction.id)
  let validation ← ofRules (catalog.require Table.applicationValidation.id)
  let engine ← ofSetting (Engine.create settings action ⟨now, none⟩ .empty)
  let dispatcher ← dispatcherOf o env network
  return { engine, validation, dispatcher }

end Followup.Worker
