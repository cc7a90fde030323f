import ClusterBackup.Proofs.Fleet.Basic
import ClusterBackup.Proofs.Reconcile.Calls
import ClusterBackup.Proofs.Record.Closing
import ClusterBackup.Proofs.Record.Reading
/-!
# Reconciles that share a backup

Any number of reconciles of one backup, which the API protects by versions: every write gives the
object a version that it has not had before, and a record that was based on another version than
the current one is not written. Nothing is assumed of the answers to other calls.

A record is therefore only replaced by a reconcile that has seen it (`Stored.advances_of_answers`).
A final state and a time of completion last (`final_state_lasts`).
-/

namespace ClusterBackup

open Api.Server (memberOrNull versionOf)

/-- A stored backup, and all versions that it has had. -/
structure Stored where
  object : Json
  versions : List Json

namespace Stored

variable {s t : Stored} {c : Api.Call} {object : Json}

/-! ## The API -/

def status (s : Stored) : Json := memberOrNull s.object "status"

structure Rewritten (s t : Stored) : Prop where
  given : (versionOf t.object).given = true
  fresh : ∀ v ∈ s.versions, v.equals (versionOf t.object) = false
  versions : t.versions = versionOf t.object :: s.versions

/-- Whether a new record is based on the current version, or on none. -/
def Accepts (s : Stored) (u : Api.StatusUpdate) : Prop :=
  u.version.given = false ∨ u.version.equals (versionOf s.object) = true

/-- How a call may be answered. A record that is written is stored, whether or not the answer says
so. -/
inductive Answers : Stored → (c : Api.Call) → c.Outcome → Stored → Prop where
  | found (s : Stored) (ns name : Json) : Answers s (.getBackup ns name) (.ok s.object) s
  | failed (s : Stored) (c : Api.Call) (f : Api.Failure) : Answers s c (.error f) s
  | other (s : Stored) {c : Api.Call} (outcome : c.Outcome)
      (hget : ∀ ns name, c ≠ .getBackup ns name) (hput : ∀ u, c ≠ .replaceStatus u) : Answers s c outcome s
  | written {s t : Stored} {u : Api.StatusUpdate} (outcome : Except Api.Failure Unit)
      (haccept : s.Accepts u) (hwrite : s.Rewritten t) (hstatus : t.status = u.record.toJson) :
      Answers s (.replaceStatus u) outcome t

/-- The backup was changed from outside: anything but its record. -/
def Edited (s t : Stored) : Prop := s.Rewritten t ∧ t.status = s.status

/-- The rules for reconciles of one backup, each with settings of its own. -/
def rules (τ : Type) [NatCast τ] (key : ObjectKey) : Fleet.Rules τ Stored where
  Starts p := ∃ settings, p = reconcile settings key
  Answers := Answers
  Changes := Edited

def initial (object : Json) : Stored := ⟨object, [versionOf object]⟩

/-! ## Snapshots -/

/-- The current version counts as given, and is among all versions. -/
structure Sound (s : Stored) : Prop where
  given : (versionOf s.object).given = true
  mem : versionOf s.object ∈ s.versions

theorem sound_initial (h : (versionOf object).given = true) : (initial object).Sound :=
  ⟨h, List.mem_cons_self ..⟩

theorem Rewritten.sound (h : s.Rewritten t) : t.Sound :=
  ⟨h.given, by rw [h.versions]; exact List.mem_cons_self ..⟩

/-- The backup has been in this form: it still is, or its version is not the current one. -/
structure Saw (s : Stored) (object : Json) : Prop where
  given : (versionOf object).given = true
  mem : versionOf object ∈ s.versions
  current : object = s.object ∨ (versionOf object).equals (versionOf s.object) = false

theorem Sound.saw (h : s.Sound) : s.Saw s.object := ⟨h.given, h.mem, .inl rfl⟩

theorem Saw.rewritten (h : s.Saw object) (hw : s.Rewritten t) : t.Saw object where
  given := h.given
  mem := by
    rw [hw.versions]
    exact List.mem_cons_of_mem _ h.mem
  current := .inr (hw.fresh _ h.mem)

def Admits (s : Stored) (c : Api.Call) : Prop :=
  ∃ object b, s.Saw object ∧ Backup.ofJson object = .ok b ∧ b.MayCall c

theorem Admits.rewritten (h : s.Admits c) (hw : s.Rewritten t) : t.Admits c := by
  obtain ⟨object, b, hsaw, hb, hc⟩ := h
  exact ⟨object, b, hsaw.rewritten hw, hb, hc⟩

/-- A reconcile has still to read the backup, or has seen it in one of its forms. -/
def Follows {τ : Type} [NatCast τ] (key : ObjectKey) (s : Stored) (p : Reconciling τ) : Prop :=
  (∃ settings, p = reconcile settings key) ∨ p.Within s.Admits fun _ => True

theorem Follows.rewritten {τ : Type} [NatCast τ] {key : ObjectKey} {p : Reconciling τ}
    (h : Follows key s p) (hw : s.Rewritten t) : Follows key t p :=
  h.imp_right fun hp => hp.mono fun _ hc => hc.rewritten hw

/-! ## Records -/

/-- How a stored record is replaced: by one that it is open to. -/
def Advances (old new : Json) : Prop :=
  ∃ stored p d profile, Record.ofJson old = .ok stored ∧
    Record.isClosedTo stored (.ofProgress p d profile) = .ok false ∧
    new = (Record.ofProgress p d profile).toJson

theorem Saw.eq_of_accepts {u : Api.StatusUpdate} (h : s.Saw object) (ha : s.Accepts u)
    (hu : u.version = versionOf object) : object = s.object := by
  rcases h.current with hsame | hstale
  · exact hsame
  · -- A version that has been replaced is not accepted.
    exfalso
    rcases ha with hnone | hequal
    · rw [hu, h.given] at hnone
      cases hnone
    · rw [hu, hstale] at hequal
      cases hequal

theorem advances_of_accepts {u : Api.StatusUpdate} (h : s.Admits (.replaceStatus u))
    (ha : s.Accepts u) : Advances s.status u.record.toJson := by
  obtain ⟨object, b, hsaw, hb, hc⟩ := h
  have hread := Backup.readFrom_of_ofJson hb
  rcases hc with hc | hc
  · cases hc
  cases hc with
  | replaceStatus hopen hnew =>
    have hobject : object = s.object := hsaw.eq_of_accepts ha hread.version
    subst hobject
    exact ⟨b.record, _, _, _, hread.record, hopen, rfl⟩

theorem not_advances_of_failed {old new : Json} (h : memberOrNull old "state" = .str "Failed") :
    ¬ Advances old new := by
  rintro ⟨stored, p, d, profile, hread, hopen, -⟩
  obtain ⟨r, rfl, hstate, -⟩ := Record.ofJson_of_given hread (by rw [h]; rfl)
  rw [h] at hstate
  rw [Record.isClosedTo_of_failed (Record.stage?_of_state hstate)] at hopen
  cases hopen

theorem not_advances_of_completed {old new : Json}
    (h : memberOrNull old "state" = .str "Succeeded")
    (hc : (memberOrNull old "completedAt").isNull = false) : ¬ Advances old new := by
  rintro ⟨stored, p, d, profile, hread, hopen, -⟩
  obtain ⟨r, rfl, hstate, hcompleted⟩ := Record.ofJson_of_given hread (by rw [h]; rfl)
  rw [h] at hstate
  rw [← hcompleted] at hc
  rw [Record.isClosedTo_of_completed (Record.stage?_of_state hstate) hc] at hopen
  cases hopen

theorem Advances.succeeded {old new : Json} (ha : Advances old new)
    (h : memberOrNull old "state" = .str "Succeeded") :
    memberOrNull new "state" = .str "Succeeded" := by
  obtain ⟨stored, p, d, profile, hread, hopen, rfl⟩ := ha
  obtain ⟨r, rfl, hstate, -⟩ := Record.ofJson_of_given hread (by rw [h]; rfl)
  rw [h] at hstate
  have hstage := Record.stage?_of_open (Record.stage?_of_state hstate) hopen
  rw [memberOrNull_state_toJson]
  exact Record.state_of_stage? hstage

theorem Advances.state_of_completed {old : Json} {r : Record} (ha : Advances old r.toJson)
    (hc : r.completedAt.isNull = false) : r.state = .str "Succeeded" := by
  obtain ⟨stored, p, d, profile, -, -, hnew⟩ := ha
  have hcompleted : r.completedAt = (Record.ofProgress p d profile).completedAt := by
    rw [← memberOrNull_completedAt_toJson, hnew, memberOrNull_completedAt_toJson]
  rw [hcompleted] at hc
  have hstage := Record.stage_of_completed hc
  rw [← memberOrNull_state_toJson, hnew, memberOrNull_state_toJson, Record.ofProgress, hstage]
  rfl

/-! ## Runs -/

section

variable {τ : Type} [NatCast τ] {key : ObjectKey} {h : List (Fleet.Occurrence Stored)}

/-- What the writes of records keep of the record, given what has happened, every run keeps. -/
theorem kept {X : List (Fleet.Occurrence Stored) → Json → Prop}
    (hquiet : ∀ {h} {s : Stored} {c : Api.Call} {outcome : c.Outcome}, X h s.status →
      X (h ++ [.called s c outcome s]) s.status)
    (hedit : ∀ {h} {s t : Stored}, X h s.status → X (h ++ [.changed s t]) s.status)
    (hwrite : ∀ {h} {s t : Stored} {u : Api.StatusUpdate} {outcome : Except Api.Failure Unit},
      X h s.status → Advances s.status u.record.toJson →
      X (h ++ [.called s (.replaceStatus u) outcome t]) u.record.toJson) :
    Fleet.Kept (rules τ key) (fun h s => s.Sound ∧ X h s.status)
      (fun _ s p => Follows key s p) where
  start _ hp := .inl hp
  pause := by
    rintro h s seconds p (⟨settings, hp⟩ | hp)
    · rw [reconcile_eq] at hp
      cases hp
    · exact .inr hp.2
  call := by
    intro h s c next outcome t hi hj ha
    rcases hj with ⟨settings, hp⟩ | hp
    · -- The read with which a reconcile starts.
      rw [reconcile_eq] at hp
      cases hp
      have hsame : t = s ∧ ∀ object, outcome = .ok object → object = s.object := by
        cases ha with
        | found => exact ⟨rfl, fun object hobject => (Except.ok.inj hobject).symm⟩
        | failed => exact ⟨rfl, fun object hobject => by cases hobject⟩
        | other _ hget _ => exact absurd rfl (hget _ _)
      obtain ⟨rfl, hobject⟩ := hsame
      refine ⟨⟨hi.1, hquiet hi.2⟩, .inr ?_, fun p hp => hp⟩
      refine (within_afterRead (fun _ => trivial) settings key outcome).mono ?_
      rintro c ⟨object, b, hfound, hb, hc⟩
      exact ⟨object, b, hobject object hfound ▸ hi.1.saw, hb, hc⟩
    · cases ha with
      | found => exact ⟨⟨hi.1, hquiet hi.2⟩, .inr (hp.2 _), fun p hp => hp⟩
      | failed => exact ⟨⟨hi.1, hquiet hi.2⟩, .inr (hp.2 _), fun p hp => hp⟩
      | other => exact ⟨⟨hi.1, hquiet hi.2⟩, .inr (hp.2 _), fun p hp => hp⟩
      | written outcome haccept hrewritten hstatus =>
        have hadvance := advances_of_accepts hp.1 haccept
        refine ⟨⟨hrewritten.sound, ?_⟩, ?_, fun p hp => hp.rewritten hrewritten⟩
        · rw [hstatus]
          exact hwrite hi.2 hadvance
        · exact Follows.rewritten (.inr (hp.2 _)) hrewritten
  change := by
    rintro h s t hi ⟨hrewritten, hstatus⟩
    refine ⟨⟨hrewritten.sound, ?_⟩, fun p hp => hp.rewritten hrewritten⟩
    rw [hstatus]
    exact hedit hi.2

theorem lasts {X : Json → Prop} (hX : ∀ {old new}, Advances old new → X old → X new)
    {object : Json} (hv : (versionOf object).given = true) {middle last : Fleet τ Stored}
    {h' : List (Fleet.Occurrence Stored)}
    (hrun : Fleet.Run (rules τ key) ⟨initial object, []⟩ h middle)
    (hrun' : Fleet.Run (rules τ key) middle h' last) (hm : X middle.state.status) :
    X last.state.status := by
  have hfirst := hrun.invariant (kept (X := fun _ _ => True) (fun _ => trivial)
    (fun _ => trivial) (fun _ _ => trivial)) ⟨sound_initial hv, trivial⟩ (by simp)
  have hrest := hrun'.invariant (kept (X := fun _ record => X record) (fun hx => hx)
    (fun hx => hx) (fun hx ha => hX ha hx)) ⟨hfirst.1.1, hm⟩ hfirst.2
  exact hrest.1.2

/-- Every time of completion that was written is still there, in the record of a success. -/
def KeepsCompletions (h : List (Fleet.Occurrence Stored)) (record : Json) : Prop :=
  ∀ s u outcome t, .called s (.replaceStatus u) outcome t ∈ h → t ≠ s →
    u.record.completedAt.isNull = false →
    record = u.record.toJson ∧ u.record.state = .str "Succeeded"

theorem KeepsCompletions.append {record : Json} {o : Fleet.Occurrence Stored}
    (hx : KeepsCompletions h record)
    (ho : ∀ s u outcome t, o = .called s (.replaceStatus u) outcome t → t = s) :
    KeepsCompletions (h ++ [o]) record := by
  intro s u outcome t hmem hne
  rcases List.mem_append.1 hmem with hmem | hmem
  · exact hx s u outcome t hmem hne
  · exact absurd (ho s u outcome t (List.mem_singleton.1 hmem).symm) hne

theorem KeepsCompletions.write {record : Json} {u : Api.StatusUpdate}
    {outcome : Except Api.Failure Unit} (hx : KeepsCompletions h record)
    (ha : Advances record u.record.toJson) :
    KeepsCompletions (h ++ [.called s (.replaceStatus u) outcome t]) u.record.toJson := by
  intro s' u' outcome' t' hmem hne hc
  rcases List.mem_append.1 hmem with hmem | hmem
  · -- A record with a time of completion is closed, so nothing can have been written over it.
    obtain ⟨hrecord, hstate⟩ := hx s' u' outcome' t' hmem hne hc
    rw [hrecord] at ha
    exact absurd ha (not_advances_of_completed (by simpa using hstate) (by simpa using hc))
  · cases List.mem_singleton.1 hmem
    exact ⟨rfl, ha.state_of_completed hc⟩

theorem keepsCompletions {object : Json} (hv : (versionOf object).given = true)
    {last : Fleet τ Stored} (hrun : Fleet.Run (rules τ key) ⟨initial object, []⟩ h last) :
    KeepsCompletions h last.state.status := by
  have hkept : Fleet.Kept (rules τ key) (fun h s => s.Sound ∧ KeepsCompletions h s.status)
      (fun _ s p => Follows key s p) := by
    apply kept
    · intro h s c outcome hx
      refine hx.append fun s' u outcome' t' heq => ?_
      cases heq
      rfl
    · intro h s t hx
      refine hx.append fun s' u outcome' t' heq => ?_
      cases heq
    · intro h s t u outcome hx ha
      exact hx.write ha
  have hnone : KeepsCompletions [] (initial object).status := by
    intro s u outcome t hmem
    cases hmem
  exact (hrun.invariant hkept ⟨sound_initial hv, hnone⟩ (by simp)).1.2

end

/-! ## The server -/

/-- How the server of one backup answers: as it does by itself to a read and to a new record, which
it has to find a new version for, and in the way given to all other calls. -/
def respond (others : (c : Api.Call) → c.Outcome) (s : Stored) :
    (c : Api.Call) → c.Outcome × Stored
  | .getBackup _ _ => (.ok s.object, s)
  | .replaceStatus u =>
    match Api.Server.replaced s.object u with
    | .error f => (.error f, s)
    | .ok object =>
      if (versionOf object).given && s.versions.all fun v => !v.equals (versionOf object) then
        (.ok (), ⟨object, versionOf object :: s.versions⟩)
      else (.error .conflict, s)
  | c => (others c, s)

theorem answers_respond (others : (c : Api.Call) → c.Outcome) (s : Stored) (c : Api.Call) :
    Answers s c (respond others s c).1 (respond others s c).2 := by
  cases c with
  | getBackup ns name => exact .found s ns name
  | replaceStatus u =>
    unfold respond
    dsimp only
    split
    · exact .failed s _ _
    · rename_i object hreplaced
      obtain ⟨haccept, hstatus⟩ := accepted_of_replaced hreplaced
      split
      · rename_i hnew
        simp only [Bool.and_eq_true, List.all_eq_true, Bool.not_eq_true'] at hnew
        exact .written _ haccept ⟨hnew.1, hnew.2, rfl⟩ (hstatus hnew.1)
      · exact .failed s _ _
  | _ => exact .other s _ (fun _ _ h => by cases h) fun _ h => by cases h

theorem run_alone {τ : Type} [NatCast τ] (others : (c : Api.Call) → c.Outcome)
    (settings : Settings τ) (key : ObjectKey) (s : Stored) (back : List (Reconciling τ)) :
    ∃ last, Fleet.Run (rules τ key) ⟨s, back⟩
      (Fleet.happenings ⟨respond others, fun s _ => s⟩ (reconcile settings key) s) last ∧
      last.state = ((reconcile settings key).run ⟨respond others, fun s _ => s⟩ s).2 := by
  have hstart : Fleet.Run (rules τ key) ⟨s, back⟩ [] ⟨s, reconcile settings key :: back⟩ :=
    .start .refl ⟨settings, rfl⟩
  exact ⟨_, hstart.alone (answers_respond others) fun _ _ => rfl, rfl⟩

/-! ## Final states -/

/-- A success remains a success, a failure remains a failure, and a time of completion that a
reconcile has written remains as it is, whatever other reconciles do and others change. -/
theorem final_state_lasts {τ : Type} [NatCast τ] {key : ObjectKey}
    {h : List (Fleet.Occurrence Stored)} {object : Json} (hv : (versionOf object).given = true)
    {middle : Fleet τ Stored}
    (hrun : Fleet.Run (rules τ key) ⟨initial object, []⟩ h middle) :
    (∀ h' last, Fleet.Run (rules τ key) middle h' last →
      stateOf middle.state.object = .str "Succeeded" →
      stateOf last.state.object = .str "Succeeded") ∧
    (∀ h' last, Fleet.Run (rules τ key) middle h' last →
      stateOf middle.state.object = .str "Failed" →
      stateOf last.state.object = .str "Failed") ∧
    (∀ s u outcome t, .called s (.replaceStatus u) outcome t ∈ h → t ≠ s →
      u.record.completedAt.isNull = false →
      completionOf middle.state.object = u.record.completedAt) := by
  refine ⟨?_, ?_, ?_⟩
  · intro h' last hrun' hs
    exact lasts (X := fun record => memberOrNull record "state" = .str "Succeeded")
      (fun ha hs => ha.succeeded hs) hv hrun hrun' hs
  · intro h' last hrun' hs
    exact lasts (X := fun record => memberOrNull record "state" = .str "Failed")
      (fun ha hs => absurd ha (not_advances_of_failed hs)) hv hrun hrun' hs
  · intro s u outcome t hmem hne hc
    have hrecord := (keepsCompletions hv hrun s u outcome t hmem hne hc).1
    show memberOrNull middle.state.status "completedAt" = _
    rw [hrecord, memberOrNull_completedAt_toJson]

def nightly (s : Stored) : Stored :=
  ((reconcile (.usual : Settings Rat) Nightly.key).run ⟨respond Nightly.answers, fun s _ => s⟩ s).2

theorem run_nightly (s : Stored) (back : List (Reconciling Rat)) :
    ∃ last, Fleet.Run (rules Rat Nightly.key) ⟨s, back⟩
      (Fleet.happenings ⟨respond Nightly.answers, fun s _ => s⟩
        (reconcile (.usual : Settings Rat) Nightly.key) s) last ∧ last.state = nightly s :=
  run_alone Nightly.answers .usual Nightly.key s back

def completes : Fleet.Occurrence Stored → Bool
  | .called s (.replaceStatus u) _ t =>
    t.versions.length != s.versions.length && !u.record.completedAt.isNull
  | _ => false

theorem final_state_lasts_nightly :
    stateOf (nightly (nightly (initial (Nightly.backup .null)))).object = .str "Succeeded" ∧
      stateOf (nightly (initial (Nightly.backup (.obj [("state", .str "Failed")])))).object =
        .str "Failed" ∧
      (completionOf (nightly (initial (Nightly.backup .null))).object).isNull = false := by
  obtain ⟨middle, hrun, hmiddle⟩ := run_nightly (initial (Nightly.backup .null)) []
  obtain ⟨last, hrun', hlast⟩ := run_nightly middle.state middle.running
  obtain ⟨last', hfailed, hlast'⟩ :=
    run_nightly (initial (Nightly.backup (.obj [("state", .str "Failed")]))) []
  have hany : (Fleet.happenings ⟨respond Nightly.answers, fun s _ => s⟩
      (reconcile (.usual : Settings Rat) Nightly.key) (initial (Nightly.backup .null))).any
        completes = true := by
    decide +kernel
  refine ⟨?_, ?_, ?_⟩
  · have hstate : stateOf middle.state.object = .str "Succeeded" := by
      rw [hmiddle]
      decide +kernel
    rw [← hmiddle, ← hlast]
    exact (final_state_lasts (by decide) hrun).1 _ last hrun' hstate
  · rw [← hlast']
    exact (final_state_lasts (by decide) .refl).2.1 _ last' hfailed (by decide)
  · obtain ⟨o, ho, hc⟩ := List.any_eq_true.1 hany
    unfold completes at hc
    split at hc
    · rename_i s u outcome t
      simp only [Bool.and_eq_true, bne_iff_ne, Bool.not_eq_true'] at hc
      have hne : t ≠ s := fun heq => hc.1 (by rw [heq])
      rw [← hmiddle, (final_state_lasts (by decide) hrun).2.2 s u outcome t ho hne hc.2]
      exact hc.2
    · cases hc

end Stored

end ClusterBackup
