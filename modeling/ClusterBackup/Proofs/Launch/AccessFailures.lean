import ClusterBackup.Launch
/-!
# Launches without access

Whatever keeps the loader from loading credentials is a refusal, and ends the launch with the exit
code for that, before anything is run. What is found wrong with the path before the loader is asked
is none: a path that starts from a home directory that is not known leaves the launch without an end
of its own (`load_failures_are_refusals`).
-/

namespace ClusterBackup

inductive LaunchDeed where
  | setsLevel (level : String)
  | loads (source : CredentialSource)
  | complains (text : String)
  | logs (text : String)
  | runs (settings : Settings Binary64)
deriving DecidableEq

/-- Surroundings in which all that is done is written down, and in which it is known beforehand what
comes of loading. -/
def Surroundings.recording (homeOf : String → Option String)
    (load : CredentialSource → Except LoadFailure Unit) : Surroundings (StateM (List LaunchDeed))
    where
  homeOf
  load source := do
    modify (· ++ [.loads source])
    return load source
  setLogLevel level := modify (· ++ [.setsLevel level])
  complain text := modify (· ++ [.complains text])
  logError text := modify (· ++ [.logs text])
  run settings := modify (· ++ [.runs settings])

variable {homeOf : String → Option String} {load : CredentialSource → Except LoadFailure Unit}
variable {path : Option Setting} {source : CredentialSource}
variable {f : LoadFailure} {settings : Settings Binary64} {options : Options}

/-! ## Sources -/

def Path.ofTrimmed (given : String) : Path :=
  ofText (String.ofList (Text.trim given.toList))

/-- The path starts from the home directory of a user, and that is not known. -/
def StartsFromUnknownHome (homeOf : String → Option String) (path : Option Setting) : Prop :=
  ∃ given user parts, path = some (.text given) ∧
    Path.ofTrimmed given = ⟨[], ('~' :: user) :: parts⟩ ∧ homeOf (String.ofList user) = none

theorem Path.expand?_eq_none_iff {p : Path} : p.expand? homeOf = none ↔
    ∃ user parts, p = ⟨[], ('~' :: user) :: parts⟩ ∧ homeOf (String.ofList user) = none := by
  constructor
  · intro h
    unfold expand? at h
    split at h
    case h_1 user parts hroot hparts =>
      obtain ⟨root, all⟩ := p
      obtain rfl := hroot
      obtain rfl := hparts
      exact ⟨user, parts, rfl, Option.map_eq_none_iff.1 h⟩
    case h_2 => cases h
  · rintro ⟨user, parts, rfl, hhome⟩
    simp [expand?, hhome]

namespace CredentialSource

theorem pathOf_of_expand {given : String} (h : (Path.ofTrimmed given).expand? homeOf = none) :
    pathOf homeOf given = .error .noHome := by
  unfold Path.ofTrimmed at h
  unfold pathOf
  split
  case h_1 hblank =>
    rw [hblank] at h
    cases h
  case h_2 => rw [h]

theorem exists_pathOf_of_expand {given : String} {p : Path}
    (h : (Path.ofTrimmed given).expand? homeOf = some p) : ∃ path, pathOf homeOf given = .ok path := by
  unfold Path.ofTrimmed at h
  unfold pathOf
  split
  case h_1 => exact ⟨none, rfl⟩
  case h_2 => exact ⟨some p.text, by rw [h]⟩

theorem choose_of_unknownHome (h : StartsFromUnknownHome homeOf path) (context : Option Setting)
    (inPod : Bool) : choose homeOf path context inPod = .error .noHome := by
  obtain ⟨given, user, parts, rfl, hpath, hhome⟩ := h
  have hexpand : (Path.ofTrimmed given).expand? homeOf = none :=
    Path.expand?_eq_none_iff.2 ⟨user, parts, hpath, hhome⟩
  rw [choose, pathOf_of_expand hexpand]
  rfl

theorem exists_choose (hhome : ¬ StartsFromUnknownHome homeOf path)
    (htext : path ≠ some .nothing) (context : Option Setting) (inPod : Bool) :
    ∃ source, choose homeOf path context inPod = .ok source ∧ (source = pod ↔ inPod = true) := by
  obtain ⟨named, hnamed⟩ : ∃ named, choose homeOf path context inPod =
      .ok (if inPod then pod else file named context) := by
    match path with
    | none => exact ⟨none, rfl⟩
    | some .nothing => exact absurd rfl htext
    | some (.text given) =>
      cases hexpand : (Path.ofTrimmed given).expand? homeOf with
      | none =>
        obtain ⟨user, parts, hpath, hunknown⟩ := Path.expand?_eq_none_iff.1 hexpand
        exact absurd ⟨given, user, parts, rfl, hpath, hunknown⟩ hhome
      | some p =>
        obtain ⟨named, hnamed⟩ := exists_pathOf_of_expand hexpand
        refine ⟨named, ?_⟩
        rw [choose, hnamed]
        rfl
  refine ⟨_, hnamed, ?_⟩
  cases inPod <;> simp

end CredentialSource

open CredentialSource (choose)

/-! ## Loading -/

def obtained (homeOf : String → Option String) (load : CredentialSource → Except LoadFailure Unit)
    (o : Options) (ds : List LaunchDeed) : Except AccessError CredentialSource × List LaunchDeed :=
  (obtainAccess (Surroundings.recording homeOf load).load homeOf o.kubeconfig o.context
    o.inCluster).run ds

variable {ds : List LaunchDeed}

theorem obtained_of_error {e : AccessError}
    (h : choose homeOf options.kubeconfig options.context options.inCluster = .error e) :
    obtained homeOf load options ds = (.error e, ds) := by
  rw [obtained, obtainAccess, h]
  rfl

theorem obtained_of_failed
    (h : choose homeOf options.kubeconfig options.context options.inCluster = .ok source)
    (hload : load source = .error f) :
    obtained homeOf load options ds = (.error (.refused source f), ds ++ [.loads source]) := by
  rw [obtained, obtainAccess, h]
  simp only [Surroundings.recording, bind_pure_comp, hload, bind_map_left, StateT.run_map,
    StateT.run_modify, map_pure]
  rfl

theorem obtained_of_loaded
    (h : choose homeOf options.kubeconfig options.context options.inCluster = .ok source)
    (hload : load source = .ok ()) :
    obtained homeOf load options ds = (.ok source, ds ++ [.loads source]) := by
  rw [obtained, obtainAccess, h]
  simp only [Surroundings.recording, bind_pure_comp, hload, bind_map_left, StateT.run_map,
    StateT.run_modify, map_pure]
  rfl

/-! ## Launching -/

def launched (homeOf : String → Option String) (load : CredentialSource → Except LoadFailure Unit)
    (settings : Settings Binary64) (o : Options) : Except LaunchError Exit × List LaunchDeed :=
  (launch (.recording homeOf load) settings o).run []

/-- With valid settings a launch goes as far as the loading of credentials, and ends as that does. -/
theorem launched_eq (hvalid : (options.applyTo settings).error? = none) :
    launched homeOf load settings options =
      match obtained homeOf load options
        [.setsLevel (options.applyTo settings).capitalLevel] with
      | (.ok _, ds) => (.ok .finished, ds ++ [.runs (options.applyTo settings)])
      | (.error (.refused source f), ds) => (.ok .noAccess, ds ++ [.logs (source.refusal f)])
      | (.error .noHome, ds) => (.error .noHome, ds)
      | (.error .noPath, ds) => (.error .noText, ds) := by
  unfold launched launch
  simp only [hvalid, StateT.run_bind]
  have hlevel : ((Surroundings.recording homeOf load).setLogLevel
      (options.applyTo settings).capitalLevel).run [] =
        pure ((), [.setsLevel (options.applyTo settings).capitalLevel]) := rfl
  rw [hlevel, pure_bind]
  generalize hobtained : obtained homeOf load options
    [.setsLevel (options.applyTo settings).capitalLevel] = result
  have haccess : (obtainAccess (Surroundings.recording homeOf load).load homeOf
      options.kubeconfig options.context options.inCluster).run
        [.setsLevel (options.applyTo settings).capitalLevel] = pure result := hobtained
  obtain ⟨access, ds⟩ := result
  rw [show (Surroundings.recording homeOf load).homeOf = homeOf from rfl, haccess, pure_bind]
  match access with
  | .ok _ => rfl
  | .error (.refused source f) => rfl
  | .error .noHome => rfl
  | .error .noPath => rfl

/-- Whatever keeps the loader from loading credentials, in a pod or from a file, is a refusal with the
text that goes with it, and with valid settings the launch ends with the exit code 3 and runs
nothing. But a path that starts from a home directory that is not known, or an option for the path
with nothing in it, leads to no refusal: nothing is loaded, in a pod or not, and the launch breaks
off without an exit code. -/
theorem load_failures_are_refusals (homeOf : String → Option String)
    (load : CredentialSource → Except LoadFailure Unit) (settings : Settings Binary64)
    (options : Options) :
    let valid := (options.applyTo settings).error? = none
    let level := LaunchDeed.setsLevel (options.applyTo settings).capitalLevel
    (StartsFromUnknownHome homeOf options.kubeconfig →
      obtained homeOf load options [] = (.error .noHome, []) ∧
      (valid → launched homeOf load settings options = (.error .noHome, [level]))) ∧
    (options.kubeconfig = some .nothing →
      obtained homeOf load options [] = (.error .noPath, []) ∧
      (valid → launched homeOf load settings options = (.error .noText, [level]))) ∧
    (¬ StartsFromUnknownHome homeOf options.kubeconfig → options.kubeconfig ≠ some .nothing →
      ∃ source, (source = .pod ↔ options.inCluster = true) ∧
        (load source = .ok () →
          obtained homeOf load options [] = (.ok source, [.loads source]) ∧
          (valid → launched homeOf load settings options =
            (.ok .finished, [level, .loads source, .runs (options.applyTo settings)]))) ∧
        ∀ f, load source = .error f →
          obtained homeOf load options [] = (.error (.refused source f), [.loads source]) ∧
          (valid → (launched homeOf load settings options).1.map Exit.code = .ok 3 ∧
            (launched homeOf load settings options).2 =
              [level, .loads source, .logs (source.refusal f)])) := by
  intro valid level
  refine ⟨fun hhome => ?_, fun hnothing => ?_, fun hhome htext => ?_⟩
  · have hchoose := CredentialSource.choose_of_unknownHome hhome options.context options.inCluster
    refine ⟨obtained_of_error hchoose, fun hvalid => ?_⟩
    rw [launched_eq hvalid, obtained_of_error hchoose]
  · have hchoose : choose homeOf options.kubeconfig options.context options.inCluster =
        .error .noPath := by
      rw [hnothing]
      rfl
    refine ⟨obtained_of_error hchoose, fun hvalid => ?_⟩
    rw [launched_eq hvalid, obtained_of_error hchoose]
  · obtain ⟨source, hchoose, hpod⟩ :=
      CredentialSource.exists_choose hhome htext options.context options.inCluster
    refine ⟨source, hpod, fun hload => ?_, fun f hload => ?_⟩
    · refine ⟨obtained_of_loaded hchoose hload, fun hvalid => ?_⟩
      rw [launched_eq hvalid, obtained_of_loaded hchoose hload]
      rfl
    · refine ⟨obtained_of_failed hchoose hload, fun hvalid => ?_⟩
      rw [launched_eq hvalid, obtained_of_failed hchoose hload]
      exact ⟨rfl, rfl⟩

namespace Nightly

def ownHome (user : String) : Option String := if user = "" then some "/home/tester" else none

def missing (_ : CredentialSource) : Except LoadFailure Unit := .error ⟨"ConfigException", ""⟩

/-- A launch in a pod, with a path for the case that it is not in one. -/
def launchOptions (path : String) : Options :=
  { kubeconfig := some (.text path), inCluster := true }

theorem valid_usual : (Settings.usual : Settings Binary64).error? = none := by decide +kernel

theorem valid_launchOptions (path : String) :
    ((launchOptions path).applyTo (.usual : Settings Binary64)).error? = none := by
  have husual : (launchOptions path).applyTo (.usual : Settings Binary64) = .usual := rfl
  rw [husual, valid_usual]

theorem startsFromUnknownHome : StartsFromUnknownHome ownHome (some (.text " ~nobody/config")) :=
  ⟨" ~nobody/config", "nobody".toList, ["config".toList], rfl, by decide, rfl⟩

theorem not_startsFromUnknownHome : ¬ StartsFromUnknownHome ownHome (some (.text "~/config")) := by
  rintro ⟨given, user, parts, hgiven, hpath, hhome⟩
  obtain rfl : "~/config" = given := Setting.text.inj (Option.some.inj hgiven)
  have hread : Path.ofTrimmed "~/config" = ⟨[], [['~'], "config".toList]⟩ := by decide
  obtain ⟨rfl, -⟩ : user = [] ∧ parts = ["config".toList] := by
    simpa using (Path.mk.inj (hpath.symm.trans hread)).2
  cases hhome

end Nightly

/-- In a pod the path is not used, but one that starts from an unknown home directory keeps the
launch from loading anything; beside any other the failure to load is told. -/
theorem load_failures_are_refusals_nightly :
    launched Nightly.ownHome Nightly.missing .usual (Nightly.launchOptions " ~nobody/config") =
      (.error .noHome, [.setsLevel "INFO"]) ∧
    (launched Nightly.ownHome Nightly.missing .usual (Nightly.launchOptions "~/config")).1.map
      Exit.code = .ok 3 := by
  obtain ⟨hunknown, -, -⟩ := load_failures_are_refusals Nightly.ownHome Nightly.missing .usual
    (Nightly.launchOptions " ~nobody/config")
  obtain ⟨-, -, hother⟩ := load_failures_are_refusals Nightly.ownHome Nightly.missing .usual
    (Nightly.launchOptions "~/config")
  obtain ⟨source, -, -, hfailed⟩ := hother Nightly.not_startsFromUnknownHome (by decide)
  exact ⟨(hunknown Nightly.startsFromUnknownHome).2 (Nightly.valid_launchOptions _),
    ((hfailed _ rfl).2 (Nightly.valid_launchOptions _)).1⟩

end ClusterBackup
