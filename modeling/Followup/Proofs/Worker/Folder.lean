import Followup.Proofs.Settings.Consistency
import Followup.Worker.Startup

/-! Which folder the worker takes its tables from when no argument names one. The settings of a
profile have a folder, the one that is set for the profile or else the one that is set for all. A
variable stands in for the missing argument, though, and it is the one that is set for all: where
both are set it wins over that of the profile. -/

namespace Followup.Worker

open Text Settings

variable {args : List String} {arg : String} {env : Environment} {profile key : String}
  {given : List (String × String)} {o : Options} {dir : Option String} {s : Settings}
  {files : List FileTree} {network : WebRequest → Reply} {now : Instant} {setup : Setup}

def SetTo (env : Environment) (key text : String) : Prop := env.lookup key = some text ∧ text ≠ ""

def ownKey (profile : String) : String := profile ++ "_" ++ "TABLES_DIR"

/-- The folder of a profile: its own one if that is set, or else the one for all, or else none. The
profile without a name has none of its own. -/
inductive Selects (env : Environment) (profile : String) : Option String → Prop
  | own {dir : String} (hprofile : profile ≠ "") (h : SetTo env (ownKey profile) dir) :
    Selects env profile (some dir)
  | shared {dir : String} (hown : profile ≠ "" → ∀ d, ¬ SetTo env (ownKey profile) d)
    (h : SetTo env "TABLES_DIR" dir) : Selects env profile (some dir)
  | none (hown : profile ≠ "" → ∀ d, ¬ SetTo env (ownKey profile) d)
    (h : ∀ d, ¬ SetTo env "TABLES_DIR" d) : Selects env profile none

/-- Both variables are set, to different folders. -/
def Outvoted (env : Environment) (profile : String) : Prop :=
  profile ≠ "" ∧ ∃ own shared, SetTo env (ownKey profile) own ∧ SetTo env "TABLES_DIR" shared ∧
    own ≠ shared

def Flagless (args : List String) : Prop :=
  ∀ arg ∈ args, arg ≠ "--tables-dir" ∧ ¬ "--tables-dir=".toList <+: arg.toList

theorem setting?_eq_some {text : String} : setting? env key = some text ↔ SetTo env key text := by
  rw [setting?, Option.filter_eq_some_iff, decide_eq_true_iff, SetTo]

theorem setting?_eq_none : setting? env key = none ↔ ∀ text, ¬ SetTo env key text := by
  simp only [Option.eq_none_iff_forall_ne_some, ne_eq, setting?_eq_some]

theorem selects_profiled? (env : Environment) (profile : String) :
    Selects env profile (profiled? env profile "TABLES_DIR") := by
  rw [profiled?]
  split
  · next hprofile =>
    cases hshared : setting? env "TABLES_DIR" with
    | none => exact .none (fun hne => absurd hprofile hne) (setting?_eq_none.1 hshared)
    | some dir => exact .shared (fun hne => absurd hprofile hne) (setting?_eq_some.1 hshared)
  · next hprofile =>
    rw [← ownKey]
    cases hown : setting? env (ownKey profile) with
    | some dir => exact .own hprofile (setting?_eq_some.1 hown)
    | none =>
      have hunset := fun _ : profile ≠ "" => setting?_eq_none.1 hown
      cases hshared : setting? env "TABLES_DIR" with
      | none => exact .none hunset (setting?_eq_none.1 hshared)
      | some dir => exact .shared hunset (setting?_eq_some.1 hshared)

theorem shared_or_eq (hshared : env.lookup "TABLES_DIR" ≠ some "") (h : Selects env profile dir) :
    (env.lookup "TABLES_DIR").or dir = dir ↔ ¬ Outvoted env profile := by
  have hset {d : String} (hd : env.lookup "TABLES_DIR" = some d) : SetTo env "TABLES_DIR" d :=
    ⟨hd, fun hempty => hshared (hempty ▸ hd)⟩
  cases hlookup : env.lookup "TABLES_DIR" with
  | none =>
    refine iff_of_true rfl ?_
    rintro ⟨-, _, shared, -, hshared', -⟩
    cases hlookup.symm.trans hshared'.1
  | some d =>
    rw [Option.some_or]
    cases h with
    | @own own hprofile hown =>
      rw [Option.some_inj]
      constructor
      · rintro rfl ⟨-, _, _, hown', hshared', hne⟩
        cases hown.1.symm.trans hown'.1
        cases hlookup.symm.trans hshared'.1
        exact hne rfl
      · intro hnot
        by_contra hne
        exact hnot ⟨hprofile, own, d, hown, hset hlookup, Ne.symm hne⟩
    | @shared shared hown hshared' =>
      cases hlookup.symm.trans hshared'.1
      refine iff_of_true rfl ?_
      rintro ⟨hprofile, _, _, hown', -⟩
      exact hown hprofile _ hown'
    | none hown hnone => exact absurd (hset hlookup) (hnone d)

theorem not_long?_of_flagless {value : Option String}
    (h : arg ≠ "--tables-dir" ∧ ¬ "--tables-dir=".toList <+: arg.toList) :
    Options.long? arg ≠ some ("tables-dir", value) := by
  intro hlong
  have hname {name : List Char} (hname : String.ofList name = "tables-dir") :
      name = "tables-dir".toList := by
    rw [← hname, String.toList_ofList]
  rw [Options.long?] at hlong
  split at hlong
  · next cs hcs =>
    split at hlong
    · next name text hcut =>
      obtain ⟨hname', -⟩ := Prod.mk.inj (Option.some.inj hlong)
      obtain ⟨rfl, -⟩ := cut?_eq_some hcut
      refine h.2 ⟨text, ?_⟩
      rw [hcs, hname hname']
      rfl
    · obtain ⟨hname', -⟩ := Prod.mk.inj (Option.some.inj hlong)
      refine h.1 (String.toList_inj.1 ?_)
      rw [hcs, hname hname']
      rfl
  · cases hlong

theorem lookup_of_collect (h : Options.collect args = some (some given)) (hargs : Flagless args) :
    given.lookup "tables-dir" = none := by
  have hcons {name value : String} {rest : Option (Option (List (String × String)))}
      {given : List (String × String)}
      (hname : name ≠ "tables-dir")
      (hrest : ∀ {more}, rest = some (some more) → more.lookup "tables-dir" = none)
      (h : rest.map (fun r => r.map fun x => (name, value) :: x) = some (some given)) :
      given.lookup "tables-dir" = none := by
    obtain ⟨r, hr, h⟩ := Option.map_eq_some_iff.1 h
    obtain ⟨more, rfl, rfl⟩ := Option.map_eq_some_iff.1 h
    rw [List.lookup_cons, beq_eq_false_iff_ne.2 (Ne.symm hname)]
    exact hrest hr
  fun_induction Options.collect args generalizing given with
  | case1 | case2 =>
    cases h
    rfl
  | case6 arg name _ _ _ _ _ _ hlong ih =>
    obtain ⟨harg, hrest⟩ := List.forall_mem_cons.1 hargs
    refine hcons ?_ (fun hmore => ih hmore hrest) h
    rintro rfl
    exact not_long?_of_flagless harg hlong
  | case8 arg name _ _ _ _ _ _ _ hlong ih =>
    obtain ⟨harg, hrest⟩ := List.forall_mem_cons.1 hargs
    refine hcons ?_ (fun hmore => ih hmore (List.forall_mem_cons.1 hrest).2) h
    rintro rfl
    exact not_long?_of_flagless harg hlong
  | case3 | case4 | case5 | case7 | case9 | case10 | case11 | case12 => cases h

theorem tablesDir_of_read? (ho : Options.read? args env = some (.work o)) (hargs : Flagless args) :
    o.tablesDir = env.lookup "TABLES_DIR" ∧ env.lookup "TABLES_DIR" ≠ some "" := by
  rw [Options.read?] at ho
  obtain ⟨collected, hcollect, ho⟩ := Option.bind_eq_some_iff.1 ho
  cases collected with
  | none => cases ho
  | some given =>
    have hfolder : (given.lookup "tables-dir").or ((Options.variableNames.lookup "tables-dir").bind
        fun v => env.lookup v) = env.lookup "TABLES_DIR" := by
      rw [lookup_of_collect hcollect hargs]
      rfl
    dsimp only at ho
    split at ho
    · cases ho
    · split at ho
      · cases ho
      · next hne =>
        cases ho
        exact ⟨hfolder, hfolder ▸ hne⟩

theorem ofProfile_eq_ok :
    (ofProfile env profile).run = .ok (.ok s) ↔
      ∃ found, (ofLookup (profiled? env (uppered profile))).run = .ok (.ok found) ∧
        s = { found with profile := uppered profile } := by
  rw [ofProfile, Fallible.bind_eq_ok]
  constructor
  · rintro ⟨found, hfound, h⟩
    cases h
    exact ⟨found, hfound, rfl⟩
  · rintro ⟨found, hfound, rfl⟩
    exact ⟨found, hfound, rfl⟩

theorem ofProfile_of_unset (hunset : ∀ key ∈ Settings.keys, key ≠ "TABLES_DIR" →
    profiled? env (uppered profile) key = none) :
    (ofProfile env profile).run = .ok (.ok { Settings.standard with
      profile := uppered profile
      tablesDir := profiled? env (uppered profile) "TABLES_DIR" }) := by
  have hretention : (readRetention ((profiled? env (uppered profile) "RESOLVED_RETENTION").getD
      "1h")).run = .ok (.ok (.ofHours 1)) := by
    rw [hunset "RESOLVED_RETENTION" (by decide) (by decide)]
    decide +kernel
  refine ofProfile_eq_ok.2 ⟨{ Settings.standard with
    tablesDir := profiled? env (uppered profile) "TABLES_DIR" }, ?_, rfl⟩
  rw [ofLookup_eq fun key hmem _ hkey => hunset key hmem hkey, Fallible.bind_of_ok hretention]
  rfl

theorem selects_of_ofProfile (h : (ofProfile env profile).run = .ok (.ok s)) :
    Selects env (uppered profile) s.tablesDir := by
  obtain ⟨found, hfound, rfl⟩ := ofProfile_eq_ok.1 h
  obtain ⟨⟨_, hreads⟩, -⟩ := ofLookup_eq_ok.1 hfound
  change Selects env (uppered profile) found.tablesDir
  rw [hreads.tablesDir]
  exact selects_profiled? env (uppered profile)

theorem settingsOf_of_ok (hs : (ofProfile env o.profile).run = .ok (.ok s)) :
    (settingsOf o env).run = .ok (.ok { s with tablesDir := o.tablesDir.or s.tablesDir }) := by
  rw [settingsOf, Fallible.bind_of_ok hs]
  rfl

theorem settingsOf_eq (h : ∀ s, (ofProfile env o.profile).run = .ok (.ok s) →
    o.tablesDir.or s.tablesDir = s.tablesDir) : settingsOf o env = ofProfile env o.profile := by
  refine ExceptT.ext ?_
  rw [settingsOf, ExceptT.run_bind]
  cases hrun : (ofProfile env o.profile).run with
  | error fault => rfl
  | ok r =>
    cases r with
    | error e => rfl
    | ok s =>
      rw [← hrun, ← ExceptT.run_bind, ← settingsOf, settingsOf_of_ok hrun, h s hrun, hrun]

theorem ofSetting_eq_ok {α : Type} {r : Fallible SettingError α} {a : α} :
    (ofSetting r).run = .ok (.ok a) ↔ r.run = .ok (.ok a) := by
  constructor
  · intro h
    obtain ⟨answer, hr, h⟩ := map_eq_ok.1 h
    cases answer with
    | error e => cases h
    | ok b =>
      cases h
      exact hr
  · intro h
    exact map_eq_ok.2 ⟨_, h, rfl⟩

theorem ofRules_eq_ok {α : Type} {r : Except RuleError α} {a : α} :
    (liftM (ofRules r) : Fallible StartupError α).run = .ok (.ok a) ↔ r = .ok a := by
  cases r with
  | error e => exact iff_of_false nofun nofun
  | ok b => exact ⟨fun h => by cases h; rfl, fun h => by cases h; rfl⟩

theorem tables_of_setUp (h : (setUp o env files network now).run = .ok (.ok setup)) :
    (settingsOf o env).run = .ok (.ok setup.engine.settings) ∧
      ∃ catalog, catalogOf setup.engine.settings files = .ok catalog ∧
        catalog.require Table.applicationValidation.id = .ok setup.validation ∧
        catalog.require Table.notificationAction.id = .ok setup.engine.table := by
  obtain ⟨s, hs, h⟩ := Fallible.bind_eq_ok.1 h
  obtain ⟨catalog, hcatalog, h⟩ := Fallible.bind_eq_ok.1 h
  obtain ⟨action, haction, h⟩ := Fallible.bind_eq_ok.1 h
  obtain ⟨validation, hvalidation, h⟩ := Fallible.bind_eq_ok.1 h
  obtain ⟨engine, hengine, h⟩ := Fallible.bind_eq_ok.1 h
  obtain ⟨dispatcher, -, h⟩ := Fallible.bind_eq_ok.1 h
  cases h
  obtain ⟨⟨⟩, -, hengine⟩ := Fallible.bind_eq_ok.1 (ofSetting_eq_ok.1 hengine)
  cases hengine
  exact ⟨ofSetting_eq_ok.1 hs, catalog, ofRules_eq_ok.1 hcatalog, ofRules_eq_ok.1 hvalidation,
    ofRules_eq_ok.1 haction⟩

/-- A worker that starts takes its tables from the folder of its profile, unless the variable for all
names another one: then it takes them from there, whatever the profile says. It does not start where
that variable is set to an empty text. -/
theorem folder_of_profile (ho : Options.read? args env = some (.work o)) (hargs : Flagless args) :
    env.lookup "TABLES_DIR" ≠ some "" ∧
      (∀ s, (ofProfile env o.profile).run = .ok (.ok s) →
        Selects env (uppered o.profile) s.tablesDir) ∧
      (¬ Outvoted env (uppered o.profile) → settingsOf o env = ofProfile env o.profile) ∧
      (Outvoted env (uppered o.profile) → ∀ s, (ofProfile env o.profile).run = .ok (.ok s) →
        (settingsOf o env).run = .ok (.ok { s with tablesDir := env.lookup "TABLES_DIR" }) ∧
          s.tablesDir ≠ env.lookup "TABLES_DIR") ∧
      ∀ files network now setup, (setUp o env files network now).run = .ok (.ok setup) →
        (settingsOf o env).run = .ok (.ok setup.engine.settings) ∧
          ∃ catalog, catalogOf setup.engine.settings files = .ok catalog ∧
            catalog.require Table.applicationValidation.id = .ok setup.validation ∧
            catalog.require Table.notificationAction.id = .ok setup.engine.table := by
  obtain ⟨hdir, hshared⟩ := tablesDir_of_read? ho hargs
  refine ⟨hshared, fun s hs => selects_of_ofProfile hs, fun hnot => ?_, fun hout s hs => ?_,
    fun files network now setup h => tables_of_setUp h⟩
  · refine settingsOf_eq fun s hs => ?_
    rw [hdir]
    exact (shared_or_eq hshared (selects_of_ofProfile hs)).2 hnot
  · have hdiffers := mt (shared_or_eq hshared (selects_of_ofProfile hs)).1 (not_not.2 hout)
    obtain ⟨-, _, shared, -, hset, -⟩ := hout
    rw [hset.1, Option.some_or] at hdiffers
    refine ⟨?_, fun hsame => hdiffers (hset.1.symm.trans hsame.symm)⟩
    rw [settingsOf_of_ok hs, hdir, hset.1, Option.some_or]

def staged : Environment := [("STAGING_TABLES_DIR", "staging")]

def staging : Options where
  tablesDir := none
  webhookUrl := none
  webhookTemplate := none
  webhookKinds := []
  profile := "staging"

theorem uppered_staging : uppered "staging" = "STAGING" := by decide +kernel

theorem read?_staged : Options.read? ["--profile", "staging"] staged = some (.work staging) := by
  decide +kernel

theorem flagless_staging : Flagless ["--profile", "staging"] := by
  rw [Flagless]
  decide +kernel

def stagedSettings : Settings :=
  { Settings.standard with profile := "STAGING", tablesDir := some "staging" }

theorem ofProfile_staged : (ofProfile staged "staging").run = .ok (.ok stagedSettings) := by
  have hunset : ∀ key ∈ Settings.keys, key ≠ "TABLES_DIR" →
      profiled? staged (uppered "staging") key = none := by
    rw [uppered_staging]
    decide +kernel
  have hown : profiled? staged "STAGING" "TABLES_DIR" = some "staging" := by decide +kernel
  rw [ofProfile_of_unset hunset, uppered_staging, hown, stagedSettings]

theorem setUp_staged : ∃ setup, (setUp staging staged [.folder "staging" []] (fun _ => .refused)
    ⟨0, 0⟩).run = .ok (.ok setup) := by
  have hscan : FileTree.scan "staging" [] = [] := by
    simp [FileTree.scan, FileTree.foundIn]
  have hfolder : Catalog.builtin.loadFolder [.folder "staging" []] "staging" = .ok (.builtin, []) := by
    change Catalog.builtin.after (Loading.scanned (FileTree.scan "staging" [])) = _
    rw [hscan]
    rfl
  have hsettings : (settingsOf staging staged).run = .ok (.ok stagedSettings) := by
    rw [settingsOf_of_ok (o := staging) ofProfile_staged]
    rfl
  have hcatalog : catalogOf stagedSettings [.folder "staging" []] = .ok .builtin := by
    change (Catalog.builtin.loadFolder [.folder "staging" []] "staging").map Prod.fst = _
    rw [hfolder]
    rfl
  have haction : Catalog.builtin.require Table.notificationAction.id = .ok .notificationAction := rfl
  have hvalidation : Catalog.builtin.require Table.applicationValidation.id =
      .ok .applicationValidation := rfl
  rw [setUp, Fallible.bind_of_ok (ofSetting_eq_ok.2 hsettings),
    Fallible.bind_of_ok (ofRules_eq_ok.2 hcatalog), Fallible.bind_of_ok (ofRules_eq_ok.2 haction),
    Fallible.bind_of_ok (ofRules_eq_ok.2 hvalidation)]
  exact ⟨_, rfl⟩

theorem folder_of_profile_staged :
    ∃ s setup, (ofProfile staged "staging").run = .ok (.ok s) ∧
      Selects staged "STAGING" s.tablesDir ∧ ¬ Outvoted staged "STAGING" ∧
      (setUp staging staged [.folder "staging" []] (fun _ => .refused) ⟨0, 0⟩).run =
        .ok (.ok setup) ∧ setup.engine.settings = s := by
  obtain ⟨setup, hsetup⟩ := setUp_staged
  obtain ⟨-, hselects, hsame, -, hstarted⟩ := folder_of_profile read?_staged flagless_staging
  have hnot : ¬ Outvoted staged "STAGING" := by
    rintro ⟨-, _, shared, -, hshared, -⟩
    cases hshared.1
  have hupper : uppered staging.profile = "STAGING" := uppered_staging
  rw [hupper] at hselects hsame
  have hsettings := (hstarted _ _ _ setup hsetup).1
  rw [hsame hnot] at hsettings
  exact ⟨_, setup, hsettings, hselects _ hsettings, hnot, hsetup, rfl⟩

def divided : Environment := ("TABLES_DIR", "rules") :: staged

theorem divided_outvoted : Flagless ["--profile", "staging"] ∧
    ∃ o s s', Options.read? ["--profile", "staging"] divided = some (.work o) ∧
      (ofProfile divided o.profile).run = .ok (.ok s) ∧ s.tablesDir = some "staging" ∧
      (settingsOf o divided).run = .ok (.ok s') ∧ s'.tablesDir = some "rules" := by
  have hread : Options.read? ["--profile", "staging"] divided =
      some (.work { staging with tablesDir := some "rules" }) := by decide +kernel
  have hunset : ∀ key ∈ Settings.keys, key ≠ "TABLES_DIR" →
      profiled? divided (uppered "staging") key = none := by
    rw [uppered_staging]
    decide +kernel
  have hown : profiled? divided (uppered "staging") "TABLES_DIR" = some "staging" := by
    rw [uppered_staging]
    decide +kernel
  have hprofile := ofProfile_of_unset hunset
  exact ⟨flagless_staging, _, _, _, hread, hprofile, hown, settingsOf_of_ok hprofile, rfl⟩

end Followup.Worker
