import ClusterBackup.Proofs.Api.TextKey
import ClusterBackup.Proofs.Fleet.Basic
import ClusterBackup.Proofs.Record.RoundTrip
import ClusterBackup.Proofs.Reconcile.Submission
/-!
# How often a job is submitted

Any number of reconciles of one backup on one server, while others change everything on it but the
names and the record of the backup. A job that is there is not submitted again. One that was removed
is: what is recorded on the backup does not keep a reconcile from it, so that a finished backup is
carried out once more (`submissions_follow_removals`).

The submissions are counted against the removals of the job.
-/

namespace ClusterBackup

open Api (Server)
open Api.Server (memberOrNull withMember versionOf)

namespace Submissions

variable {τ : Type} {t : TextKey} {s u : Server} {c : Api.Call} {object object' : Json}

/-! ## The backup and its job -/

def jobKey (t : TextKey) : ObjectKey := .ofTexts t.1 ("xb-" ++ t.2)

def isThere (t : TextKey) (s : Server) : Bool := (s.jobs.find? (jobKey t)).isSome

/-- An object has the namespace and the name that it is stored under. -/
structure Names (t : TextKey) (object : Json) : Prop where
  ns : memberOrNull (memberOrNull object "metadata") "namespace" = .str t.1
  name : memberOrNull (memberOrNull object "metadata") "name" = .str t.2

def ShowsFinal (object : Json) : Prop :=
  stateOf object = .str "Succeeded" ∨ stateOf object = .str "Failed"

def IsFinal (t : TextKey) (s : Server) : Prop :=
  ∃ object, s.backups.find? t.key = some object ∧ ShowsFinal object

/-! ## The rules -/

/-- How a call may be answered: as the server does, with a failure after it was carried out, or with
a failure and without effect. -/
inductive Answers : Server → (c : Api.Call) → c.Outcome → Server → Prop where
  | answered (s : Server) (c : Api.Call) : Answers s c (s.answer c).1 (s.answer c).2
  | lost (s : Server) (c : Api.Call) (f : Api.Failure) : Answers s c (.error f) (s.answer c).2
  | failed (s : Server) (c : Api.Call) (f : Api.Failure) : Answers s c (.error f) s

/-- What others may change: everything but the names and the record of the backup. They may remove
it, but not bring it back. -/
def Changes (t : TextKey) (s u : Server) : Prop :=
  ∀ object, u.backups.find? t.key = some object → Names t object ∧
    ∃ old, s.backups.find? t.key = some old ∧
      memberOrNull object "status" = memberOrNull old "status"

/-- The rules for reconciles of one backup, each with settings of its own. -/
def rules (τ : Type) [NatCast τ] (t : TextKey) : Fleet.Rules τ Server where
  Starts p := ∃ settings, p = reconcile settings t.key
  Answers := Answers
  Changes := Changes t

/-! ## The count -/

def submits : Fleet.Occurrence Server → Bool
  | .called _ (.createJob ..) (.ok ()) _ => true
  | _ => false

/-- Whether the job came to be there in another way. -/
def arrives (t : TextKey) : Fleet.Occurrence Server → Bool
  | .called s c outcome u =>
    !submits (.called s c outcome u) && !isThere t s && isThere t u
  | .changed s u => !isThere t s && isThere t u

def removes (t : TextKey) : Fleet.Occurrence Server → Bool
  | .called .. => false
  | .changed s u => isThere t s && !isThere t u

/-- Every submission and every other arrival of the job is made up for by a removal, unless it is
the one that is there. -/
def Balanced (t : TextKey) (first : Server) (h : List (Fleet.Occurrence Server)) (s : Server) :
    Prop :=
  h.countP submits + h.countP (arrives t) + (isThere t first).toNat =
    h.countP (removes t) + (isThere t s).toNat

/-! ## Calls for the backup -/

def IsFor (t : TextKey) (c : Api.Call) : Prop :=
  ∃ b : Backup, b.ns = .str t.1 ∧ b.name = .str t.2 ∧ b.MayCall c

theorem names_of_readFrom {b : Backup} (hb : b.ReadFrom object) (hn : Names t object) :
    b.ns = .str t.1 ∧ b.name = .str t.2 := by
  have horBlank : ∀ s : String, (Json.str s).orBlank = .str s := by
    intro s
    by_cases hs : s = "" <;> simp [Json.orBlank, Json.orElse, hs]
  rw [hb.ns, hb.name, hn.ns, hn.name]
  exact ⟨horBlank t.1, horBlank t.2⟩

theorem IsFor.submission {ns : Json} {body : Job} (h : IsFor t (.createJob ns body)) :
    ns = .str t.1 ∧ Api.bodyName body = .str ("xb-" ++ t.2) := by
  obtain ⟨b, hns, hname, hc | hc⟩ := h
  · cases hc with
    | createJob hjob =>
      obtain ⟨hjobNs, hjobName⟩ := Job.metadata_of_forBackup hjob
      rw [hjobNs, hjobName, hns, Job.nameFor, hname]
      exact ⟨rfl, rfl⟩
  · cases hc

theorem IsFor.jobRead {ns name : Json} (h : IsFor t (.readJob ns name)) :
    ns = .str t.1 ∧ name = .str ("xb-" ++ t.2) := by
  obtain ⟨b, hns, hname, hc | hc⟩ := h
  · cases hc
  · cases hc
    rw [hns, Job.nameFor, hname]
    exact ⟨rfl, rfl⟩

theorem Names.metadata (hn : Names t object) : ∃ members inner, object = .obj members ∧
    members.lookup "metadata" = some (.obj inner) := by
  have hns := hn.ns
  cases object with
  | obj members =>
    cases hm : members.lookup "metadata" with
    | none => simp [memberOrNull, hm, Json.member] at hns
    | some metadata =>
      cases metadata with
      | obj inner => exact ⟨members, inner, rfl, hm⟩
      | _ => simp [memberOrNull, hm, Json.member] at hns
  | _ => cases hns

theorem Names.replaced {update : Api.StatusUpdate} (hn : Names t object)
    (h : Server.replaced object update = .ok object') : Names t object' := by
  obtain ⟨members, inner, rfl, hm⟩ := hn.metadata
  obtain ⟨version, hmembers⟩ := member_replaced hm h
  have hold : memberOrNull (.obj members) "metadata" = .obj inner := by
    simp [memberOrNull, hm]
  have hkept : ∀ name, name ≠ "resourceVersion" → memberOrNull (memberOrNull object' "metadata")
      name = memberOrNull (memberOrNull (.obj members) "metadata") name := by
    intro name hne
    rw [hold, memberOrNull_of_member (hmembers "metadata"), if_neg (by decide), if_pos rfl]
    exact (memberOrNull_withMember inner "resourceVersion" name version).trans (if_neg hne)
  constructor
  · rw [hkept _ (by decide)]
    exact hn.ns
  · rw [hkept _ (by decide)]
    exact hn.name

theorem Names.status_of_replaced {update : Api.StatusUpdate} (hn : Names t object)
    (h : Server.replaced object update = .ok object') :
    memberOrNull object' "status" = update.record.toJson := by
  obtain ⟨members, inner, rfl, hm⟩ := hn.metadata
  obtain ⟨version, hmembers⟩ := member_replaced hm h
  exact memberOrNull_of_member (hmembers "status")

/-! ## Single answers -/

theorem Answers.state {outcome : c.Outcome} (h : Answers s c outcome u) :
    u = s ∨ u = (s.answer c).2 := by
  cases h with
  | answered => exact .inr rfl
  | lost => exact .inr rfl
  | failed => exact .inl rfl

theorem Answers.eq_of_isOk {outcome : c.Outcome} (h : Answers s c outcome u)
    (ho : outcome.isOk = true) : outcome = (s.answer c).1 ∧ u = (s.answer c).2 := by
  cases h with
  | answered => exact ⟨rfl, rfl⟩
  | lost => cases ho
  | failed => cases ho

theorem Answers.backups_eq {outcome : c.Outcome} (h : Answers s c outcome u)
    (hc : c.isWrite = false) : u.backups = s.backups := by
  rcases h.state with rfl | rfl
  · rfl
  · exact Server.backups_answer s hc

theorem Answers.find?_job {outcome : c.Outcome} {k : ObjectKey} {stored : Api.StoredJob}
    (h : Answers s c outcome u) (hs : s.jobs.find? k = some stored) :
    u.jobs.find? k = some stored := by
  rcases h.state with rfl | rfl
  · exact hs
  · exact Server.find?_job_answer hs c

theorem Answers.job {outcome : c.Outcome} {k : ObjectKey} {stored : Api.StoredJob}
    (h : Answers s c outcome u) (hu : u.jobs.find? k = some stored) :
    s.jobs.find? k = some stored ∨
      ∃ ns job, c = .createJob ns job ∧ stored = ⟨some job, some .blank⟩ := by
  rcases h.state with rfl | rfl
  · exact .inl hu
  · exact Server.job_of_answer hu

theorem Answers.isThere_mono {outcome : c.Outcome} (h : Answers s c outcome u)
    (hs : isThere t s = true) : isThere t u = true := by
  rcases h.state with rfl | rfl
  · exact hs
  · exact Server.isSome_job_answer hs c

theorem answer_read (s : Server) : s.answer (.getBackup t.key.ns t.key.name) =
    (match s.backups.find? t.key with
      | some object => .ok object
      | none => .error .notFound, s) := Server.answer_getBackup s t.1 t.2

theorem Answers.find?_of_read {outcome : Except Api.Failure Json}
    (h : Answers s (.getBackup t.key.ns t.key.name) outcome u) (ho : outcome = .ok object) :
    s.backups.find? t.key = some object := by
  subst ho
  have hanswer := (h.eq_of_isOk rfl).1
  rw [answer_read] at hanswer
  cases hfind : s.backups.find? t.key with
  | some stored =>
    rw [hfind] at hanswer
    cases hanswer
    rfl
  | none =>
    rw [hfind] at hanswer
    cases hanswer

theorem Answers.find? {outcome : c.Outcome} (h : Answers s c outcome u)
    (hu : u.backups.find? t.key = some object) :
    s.backups.find? t.key = some object ∨ ∃ old update, c = .replaceStatus update ∧
      s.backups.find? t.key = some old ∧ Server.replaced old update = .ok object := by
  cases hc : c.isWrite with
  | false =>
    rw [h.backups_eq hc] at hu
    exact .inl hu
  | true =>
    rcases h.state with rfl | rfl
    · exact .inl hu
    · cases c with
      | replaceStatus update =>
        unfold Server.answer Server.stored at hu
        dsimp only at hu
        split at hu
        · exact .inl hu
        · rename_i key old hstored
          split at hu
          · exact .inl hu
          · rename_i new hreplaced
            rw [Table.find?_insert] at hu
            split at hu
            · rename_i hkey
              cases ObjectKey.eq_key_of_beq hkey
              cases hu
              refine .inr ⟨old, update, rfl, ?_, hreplaced⟩
              split at hstored
              · cases hstored
              · split at hstored
                · rename_i hfind
                  cases hstored
                  exact hfind
                · cases hstored
            · exact .inl hu
      | _ => cases hc

theorem IsFor.answer {ns : Json} {body : Job} (hc : IsFor t (.createJob ns body)) (s : Server) :
    (isThere t s = true ∧ s.answer (.createJob ns body) = (.error .alreadyExists, s)) ∨
      (isThere t s = false ∧
        ∃ u, s.answer (.createJob ns body) = (.ok (), u) ∧ isThere t u = true) := by
  obtain ⟨rfl, hname⟩ := hc.submission
  rw [Server.answer_createJob hname]
  unfold isThere
  cases hfind : s.jobs.find? (jobKey t) with
  | some job =>
    unfold jobKey at hfind
    rw [hfind]
    exact .inl ⟨rfl, rfl⟩
  | none =>
    unfold jobKey at hfind
    rw [hfind]
    refine .inr ⟨rfl, _, rfl, ?_⟩
    simp [jobKey]

/-- A call makes the job be there by a submission or in another way, or leaves it as it is. -/
theorem Answers.balance {outcome : c.Outcome} (h : Answers s c outcome u) (hc : IsFor t c) :
    (submits (.called s c outcome u)).toNat + (arrives t (.called s c outcome u)).toNat +
      (isThere t s).toNat = (isThere t u).toNat ∧
    (submits (.called s c outcome u) = true → isThere t s = false) := by
  cases hsub : c.isSubmission with
  | false =>
    have hjobs : u.jobs = s.jobs := by
      rcases h.state with rfl | rfl
      · rfl
      · exact Server.jobs_answer s hsub
    have hthere : isThere t u = isThere t s := by
      unfold isThere
      rw [hjobs]
    have hsubmits : submits (.called s c outcome u) = false := by
      cases c <;> first | rfl | cases hsub
    simp [hsubmits, arrives, hthere]
  | true =>
    cases c with
    | createJob ns body =>
      rcases hc.answer s with ⟨hthere, hanswer⟩ | ⟨hthere, v, hanswer, hv⟩
      · cases h with
        | answered => simp [hanswer, submits, arrives, hthere]
        | lost => simp [hanswer, submits, arrives, hthere]
        | failed => simp [submits, arrives, hthere]
      · cases h with
        | answered => simp [hanswer, submits, arrives, hthere, hv]
        | lost => simp [hanswer, submits, arrives, hthere, hv]
        | failed => simp [submits, arrives, hthere]
    | _ => cases hsub

/-! ## Runs -/

def WasThere (t : TextKey) (h : List (Fleet.Occurrence Server)) (s : Server) : Prop :=
  isThere t s = true ∨ 0 < h.countP (removes t)

/-- What holds of the server in every run: a final state is only recorded of a job that was there,
and a submission only succeeded without the job. -/
structure Invariant (t : TextKey) (first : Server) (h : List (Fleet.Occurrence Server))
    (s : Server) : Prop where
  names : ∀ object, s.backups.find? t.key = some object → Names t object
  balanced : Balanced t first h s
  final : IsFinal t s → WasThere t h s
  absent : ∀ s c outcome u, .called s c outcome u ∈ h → submits (.called s c outcome u) = true →
    isThere t s = false

/-- What holds of a reconcile in every run: it has still to read the backup, or makes calls for it
and writes no record before it has read a job that was there. -/
def Proceeds [NatCast τ] (t : TextKey) (h : List (Fleet.Occurrence Server)) (s : Server)
    (p : Reconciling τ) : Prop :=
  (∃ settings, p = reconcile settings t.key) ∨ p.Within (IsFor t) (fun _ => True) ∧
    (p.CallsUntil (fun c outcome => c.isJobRead = true ∧ outcome.isOk = true)
      (fun c => c.isWrite = false) ∨ WasThere t h s)

theorem WasThere.called {h : List (Fleet.Occurrence Server)} {outcome : c.Outcome}
    (hw : WasThere t h s) (ha : Answers s c outcome u) :
    WasThere t (h ++ [.called s c outcome u]) u := by
  refine hw.imp ha.isThere_mono fun hpos => ?_
  rw [List.countP_append]
  omega

theorem WasThere.changed {h : List (Fleet.Occurrence Server)} (hw : WasThere t h s) (u : Server) :
    WasThere t (h ++ [.changed s u]) u := by
  unfold WasThere
  rw [List.countP_append, List.countP_singleton]
  rcases hw with hs | hpos
  · cases hu : isThere t u with
    | true => exact .inl rfl
    | false =>
      refine .inr ?_
      simp [removes, hs, hu]
  · exact .inr (by omega)

theorem Answers.wasThere {h : List (Fleet.Occurrence Server)} {outcome : c.Outcome}
    (ha : Answers s c outcome u) (hc : IsFor t c) (hread : c.isJobRead = true)
    (hok : outcome.isOk = true) : WasThere t h u := by
  obtain ⟨houtcome, rfl⟩ := ha.eq_of_isOk hok
  cases c with
  | readJob ns name =>
    obtain ⟨rfl, rfl⟩ := hc.jobRead
    rw [houtcome] at hok
    cases hanswer : (s.answer (.readJob (.str t.1) (.str ("xb-" ++ t.2)))).1 with
    | ok status => exact .inl (Server.isSome_job_of_read hanswer)
    | error f =>
      rw [hanswer] at hok
      cases hok
  | _ => cases hread

theorem Invariant.called {first : Server} {h : List (Fleet.Occurrence Server)}
    {outcome : c.Outcome} (hi : Invariant t first h s) (ha : Answers s c outcome u)
    (hbalance : (submits (.called s c outcome u)).toNat +
        (arrives t (.called s c outcome u)).toNat + (isThere t s).toNat = (isThere t u).toNat ∧
      (submits (.called s c outcome u) = true → isThere t s = false))
    (hwrite : c.isWrite = true → WasThere t h s) :
    Invariant t first (h ++ [.called s c outcome u]) u := by
  constructor
  · intro object hu
    rcases ha.find? hu with hs | ⟨old, update, -, hs, hreplaced⟩
    · exact hi.names object hs
    · exact (hi.names old hs).replaced hreplaced
  · have hbefore := hi.balanced
    unfold Balanced at hbefore ⊢
    simp only [List.countP_append, List.countP_singleton, removes]
    have hsum := hbalance.1
    rcases Bool.eq_false_or_eq_true (submits (.called s c outcome u)) with hs | hs <;>
      rcases Bool.eq_false_or_eq_true (arrives t (.called s c outcome u)) with hr | hr <;>
      simp [hs, hr] at hsum ⊢ <;> omega
  · rintro ⟨object, hu, hfinal⟩
    cases hc : c.isWrite with
    | false =>
      rw [ha.backups_eq hc] at hu
      exact (hi.final ⟨object, hu, hfinal⟩).called ha
    | true => exact (hwrite hc).called ha
  · intro s' c' outcome' u' hmem hsubmits
    rcases List.mem_append.1 hmem with hmem | hmem
    · exact hi.absent s' c' outcome' u' hmem hsubmits
    · cases List.mem_singleton.1 hmem
      exact hbalance.2 hsubmits

theorem Invariant.changed {first : Server} {h : List (Fleet.Occurrence Server)}
    (hi : Invariant t first h s) (hc : Changes t s u) :
    Invariant t first (h ++ [.changed s u]) u := by
  constructor
  · intro object hu
    exact (hc object hu).1
  · have hbefore := hi.balanced
    unfold Balanced at hbefore ⊢
    simp only [List.countP_append, List.countP_singleton, submits, removes, arrives]
    rcases Bool.eq_false_or_eq_true (isThere t s) with hs | hs <;>
      rcases Bool.eq_false_or_eq_true (isThere t u) with hu | hu <;>
      simp [hs, hu] at hbefore ⊢ <;> omega
  · rintro ⟨object, hu, hfinal⟩
    obtain ⟨-, old, hs, hstatus⟩ := hc object hu
    refine (hi.final ⟨old, hs, ?_⟩).changed u
    unfold ShowsFinal stateOf at hfinal ⊢
    rwa [hstatus] at hfinal
  · intro s' c' outcome' u' hmem hsubmits
    rcases List.mem_append.1 hmem with hmem | hmem
    · exact hi.absent s' c' outcome' u' hmem hsubmits
    · cases List.mem_singleton.1 hmem

variable [NatCast τ]

theorem Proceeds.mono {h h' : List (Fleet.Occurrence Server)} {p : Reconciling τ}
    (hp : Proceeds t h s p) (hw : WasThere t h s → WasThere t h' u) : Proceeds t h' u p :=
  hp.imp_right fun hcalls => ⟨hcalls.1, hcalls.2.imp_right hw⟩

theorem kept (t : TextKey) (first : Server) :
    Fleet.Kept (rules τ t) (Invariant t first) (Proceeds t) where
  start _ hp := .inl hp
  pause := by
    rintro h s seconds p (⟨settings, hp⟩ | ⟨hcalls, huntil⟩)
    · rw [reconcile_eq] at hp
      cases hp
    · exact .inr ⟨hcalls.2, huntil⟩
  call := by
    intro h s c next outcome u hi hj ha
    rcases hj with ⟨settings, hp⟩ | ⟨honly, huntil⟩
    · -- The read with which a reconcile starts.
      rw [reconcile_eq] at hp
      cases hp
      have hsame : u = s := by
        rcases ha.state with hs | hs
        · exact hs
        · exact hs
      subst hsame
      refine ⟨hi.called ha ?_ ?_, .inr ⟨?_, ?_⟩, fun p hp => hp.mono fun hw => hw.called ha⟩
      · simp [submits, arrives]
      · intro hwrite
        cases hwrite
      · refine (within_afterRead (fun _ => trivial) settings t.key outcome).mono ?_
        rintro c ⟨object, b, hfound, hb, hc⟩
        have hn := hi.names object (ha.find?_of_read hfound)
        obtain ⟨hns, hname⟩ := names_of_readFrom (Backup.readFrom_of_ofJson hb) hn
        exact ⟨b, hns, hname, hc⟩
      · exact .inl (callsUntil_afterRead settings t.key outcome)
    · refine ⟨hi.called ha (ha.balance honly.1) ?_, .inr ⟨honly.2 _, ?_⟩,
        fun p hp => hp.mono fun hw => hw.called ha⟩
      · intro hwrite
        rcases huntil with huntil | hw
        · rw [huntil.1] at hwrite
          cases hwrite
        · exact hw
      · rcases huntil with huntil | hw
        · rcases huntil.2 outcome with ⟨hread, hok⟩ | hrest
          · exact .inr (ha.wasThere honly.1 hread hok)
          · exact .inl hrest
        · exact .inr (hw.called ha)
  change hi hc := ⟨hi.changed hc, fun p hp => hp.mono fun hw => hw.changed _⟩

/-! ## Submissions and removals -/

/-- A backup as it is before its reconciles start: it has its names, and no final state without its
job. -/
structure IsNew (t : TextKey) (s : Server) : Prop where
  names : ∀ object, s.backups.find? t.key = some object → Names t object
  final : IsFinal t s → isThere t s = true

theorem IsNew.invariant {h : List (Fleet.Occurrence Server)} {last : Fleet τ Server}
    (hn : IsNew t s) (hrun : Fleet.Run (rules τ t) ⟨s, []⟩ h last) :
    Invariant t s h last.state := by
  refine (hrun.invariant (kept t s) ⟨hn.names, ?_, ?_, ?_⟩ (by simp)).1
  · simp [Balanced]
  · intro hfinal
    exact .inl (hn.final hfinal)
  · intro s' c outcome u hmem
    cases hmem

/-- A job is submitted as often as it is removed, and once more if it is there in the end and was
not in the beginning; other ways for it to come count like submissions. It is submitted in a final
state only after it was removed. And it is then submitted as it was at first: what jobs there are
after a reconcile does not depend on what is recorded on the backup. -/
theorem submissions_follow_removals {first : Server} (hn : IsNew t first) :
    (∀ (h : List (Fleet.Occurrence Server)) (last : Fleet τ Server),
      Fleet.Run (rules τ t) ⟨first, []⟩ h last →
        h.countP submits + h.countP (arrives t) + (isThere t first).toNat =
          h.countP (removes t) + (isThere t last.state).toNat) ∧
    (∀ (before after : List (Fleet.Occurrence Server)) (last : Fleet τ Server) (s : Server)
        (c : Api.Call) (outcome : c.Outcome) (u : Server),
      Fleet.Run (rules τ t) ⟨first, []⟩ (before ++ .called s c outcome u :: after) last →
        submits (.called s c outcome u) = true → IsFinal t s → 0 < before.countP (removes t)) ∧
    (∀ (settings : Settings τ) (s : Server) (backups : Table ObjectKey Json)
        (object object' : Json) (b : Backup) (record : Option Record) (version : Json),
      s.backups.find? t.key = some object → Backup.ofJson object = .ok b →
        backups.find? t.key = some object' →
        Backup.ofJson object' = .ok { b with record, version } →
        jobsAfter settings t.key { s with backups } = jobsAfter settings t.key s) := by
  refine ⟨?_, ?_, ?_⟩
  · intro h last hrun
    exact (hn.invariant hrun).balanced
  · intro before after last s c outcome u hrun hsubmits hfinal
    have habsent := (hn.invariant hrun).absent s c outcome u (by simp) hsubmits
    obtain ⟨middle, hrun', hmiddle⟩ := hrun.before rfl
    have hwas : WasThere t before middle.state :=
      (hn.invariant hrun').final (by rw [hmiddle]; exact hfinal)
    rw [hmiddle] at hwas
    rcases hwas with hthere | hpos
    · rw [Fleet.Occurrence.before, habsent] at hthere
      cases hthere
    · exact hpos
  · intro settings s backups object object' b record version hfind hb hfind' hb'
    refine jobsAfter_withBackups settings ?_ hb ?_ hb'
    · rw [answer_read, hfind]
    · rw [answer_read, hfind']

/-! ## A backup that is carried out twice -/

namespace Nightly

open ClusterBackup.Nightly (names)

def server (status : Json) (job : Table ObjectKey Api.StoredJob) : Server :=
  { Server.empty with
    backups := Table.empty.insert names.key (ClusterBackup.Nightly.backup status)
    clusters := [(.text "apps", ClusterBackup.Nightly.cluster)]
    jobs := job }

def reconciled (s : Server) : Server :=
  ((reconcile (.usual : Settings Rat) names.key).run (Server.host Rat) s).2

def reconciling (s : Server) : List (Fleet.Occurrence Server) :=
  Fleet.happenings (Server.host Rat) (reconcile (.usual : Settings Rat) names.key) s

def finished (s : Server) : Server :=
  { s with jobs := s.jobs.insert (jobKey names) ⟨none, some ClusterBackup.Nightly.succeeded⟩ }

def cleaned (s : Server) : Server := { s with jobs := s.jobs.erase (jobKey names) }

/-- A reconcile, the success of the job, another reconcile, the removal of the job, and a last
reconcile. -/
def history : List (Fleet.Occurrence Server) :=
  let first := server .null .empty
  let recorded := reconciled (finished (reconciled first))
  reconciling first ++ [.changed (reconciled first) (finished (reconciled first))] ++
    reconciling (finished (reconciled first)) ++ [.changed recorded (cleaned recorded)] ++
    reconciling (cleaned recorded)

def resubmits : Fleet.Occurrence Server → Bool
  | .called s c outcome u => submits (.called s c outcome u) &&
    (s.backups.find? names.key).any fun object => stateOf object = .str "Succeeded"
  | .changed .. => false

theorem isNew_server : IsNew names (server .null .empty) where
  names object h := by
    cases h
    exact ⟨rfl, rfl⟩
  final h := by
    obtain ⟨object, hfind, hfinal⟩ := h
    cases hfind
    rcases hfinal with hs | hs <;> cases hs

theorem run_reconciled {first s : Server} {h : List (Fleet.Occurrence Server)}
    {back : List (Reconciling Rat)}
    (hrun : Fleet.Run (rules Rat names) ⟨first, []⟩ h ⟨s, back⟩) :
    ∃ back', Fleet.Run (rules Rat names) ⟨first, []⟩ (h ++ reconciling s)
      ⟨reconciled s, back'⟩ :=
  ⟨_, (hrun.start ⟨.usual, rfl⟩).alone (fun s c => Answers.answered s c) fun _ _ => rfl⟩

theorem run_changed {first s : Server} {h : List (Fleet.Occurrence Server)}
    {back : List (Reconciling Rat)} (hn : IsNew names first)
    (hrun : Fleet.Run (rules Rat names) ⟨first, []⟩ h ⟨s, back⟩)
    (jobs : Table ObjectKey Api.StoredJob) :
    Fleet.Run (rules Rat names) ⟨first, []⟩ (h ++ [.changed s { s with jobs }])
      ⟨{ s with jobs }, back⟩ :=
  hrun.change fun object hfind => ⟨(hn.invariant hrun).names object hfind, object, hfind, rfl⟩

theorem run_history : ∃ last,
    Fleet.Run (rules Rat names) ⟨server .null .empty, []⟩ history last := by
  obtain ⟨_, h1⟩ := run_reconciled (.refl : Fleet.Run (rules Rat names)
    ⟨server .null .empty, []⟩ [] ⟨server .null .empty, []⟩)
  have h2 := run_changed isNew_server h1 (finished (reconciled (server .null .empty))).jobs
  obtain ⟨_, h3⟩ := run_reconciled h2
  have h4 := run_changed isNew_server h3
    (cleaned (reconciled (finished (reconciled (server .null .empty))))).jobs
  obtain ⟨_, h5⟩ := run_reconciled h4
  exact ⟨_, h5⟩

/-- Whether two objects are read as the same backup but for the record and the version. -/
def sameButRecord (object object' : Json) : Bool :=
  match Backup.ofJson object, Backup.ofJson object' with
  | .ok b, .ok b' => b' = { b with record := b'.record, version := b'.version }
  | _, _ => false

theorem read_of_sameButRecord (h : sameButRecord object object' = true) :
    ∃ b record version, Backup.ofJson object = .ok b ∧
      Backup.ofJson object' = .ok { b with record, version } := by
  unfold sameButRecord at h
  split at h
  · rename_i b b' hb hb'
    rw [decide_eq_true_eq] at h
    exact ⟨b, b'.record, b'.version, hb, by rw [hb', ← h]⟩
  · cases h

end Nightly

/-- The nightly backup is carried out a second time after its success, when its job was removed. -/
theorem submissions_follow_removals_nightly :
    (∃ last, Fleet.Run (rules Rat Nightly.names) ⟨Nightly.server .null .empty, []⟩
        Nightly.history last ∧
      Nightly.history.countP submits = 2 ∧
      Nightly.history.countP submits + Nightly.history.countP (arrives Nightly.names) +
          (isThere Nightly.names (Nightly.server .null .empty)).toNat =
        Nightly.history.countP (removes Nightly.names) +
          (isThere Nightly.names last.state).toNat) ∧
    (∃ before s c outcome u after, Nightly.history = before ++ .called s c outcome u :: after ∧
      submits (.called s c outcome u) = true ∧ IsFinal Nightly.names s ∧
      0 < before.countP (removes Nightly.names)) ∧
    jobsAfter (.usual : Settings Rat) Nightly.names.key
        (Nightly.server (.obj [("state", .str "Succeeded")]) .empty) =
      jobsAfter (.usual : Settings Rat) Nightly.names.key (Nightly.server .null .empty) := by
  obtain ⟨last, hrun⟩ := Nightly.run_history
  refine ⟨⟨last, hrun, by decide +kernel, ?_⟩, ?_, ?_⟩
  · exact (submissions_follow_removals Nightly.isNew_server).1 _ last hrun
  · have hany : Nightly.history.any Nightly.resubmits = true := by decide +kernel
    obtain ⟨o, ho, hresubmits⟩ := List.any_eq_true.1 hany
    obtain ⟨before, after, hsplit⟩ := List.append_of_mem ho
    cases o with
    | called s c outcome u =>
      unfold Nightly.resubmits at hresubmits
      rw [Bool.and_eq_true, Option.any_eq_true] at hresubmits
      obtain ⟨hsubmits, object, hfind, hstate⟩ := hresubmits
      have hfinal : IsFinal Nightly.names s := ⟨object, hfind, .inl (by simpa using hstate)⟩
      rw [hsplit] at hrun
      exact ⟨before, s, c, outcome, u, after, hsplit, hsubmits, hfinal,
        (submissions_follow_removals Nightly.isNew_server).2.1 before after last s c outcome u hrun
          hsubmits hfinal⟩
    | changed => cases hresubmits
  · obtain ⟨b, record, version, hb, hb'⟩ := Nightly.read_of_sameButRecord
      (by decide +kernel : Nightly.sameButRecord (ClusterBackup.Nightly.backup .null)
        (ClusterBackup.Nightly.backup (.obj [("state", .str "Succeeded")])) = true)
    exact (submissions_follow_removals Nightly.isNew_server).2.2 (.usual : Settings Rat)
      (Nightly.server .null .empty) _ _ _ b record version rfl hb rfl hb'

end Submissions

end ClusterBackup
