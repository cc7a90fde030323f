import ClusterBackup.Proofs.Fleet.SoleReconcile
import ClusterBackup.Proofs.Program.Runs
import ClusterBackup.Proofs.Reconcile.Containment
import ClusterBackup.Proofs.Reconcile.Settling
import ClusterBackup.Proofs.Record.Codec
/-!
# What is recorded and what is stored

A record is brought up to date for a backup as it was just read, while the call for the job and the
write may fail. The record that is given back is the one that is then stored, and a write is made
exactly if the record that the job calls for is not the stored one and the stored one is not settled
(`recordProgress_gives_what_is_stored`).
-/

namespace ClusterBackup

open Api (Call Exchange Session)

variable {τ : Type} {raw : Json} {r candidate : Record} {stored : Option Record}

/-! ## Texts that are the same -/

/-- Two optional texts say the same only if they are the same. -/
theorem Json.same_iff_eq {a b : Json} (ha : Schema.text.admits a = true)
    (hb : Schema.text.admits b = true) : a.same b = true ↔ a = b := by
  cases a with
  | null => cases b <;> simp [isNull]
  | str s =>
    cases b with
    | null => simp [isNull]
    | str t => simp
    | _ => cases hb
  | _ => cases ha

theorem Json.isNull_iff {j : Json} : j.isNull = true ↔ j = .null :=
  ⟨eq_null_of_isNull, fun h => h ▸ rfl⟩

theorem Bucket.IsTextual.same_iff {a b : Bucket} (ha : a.IsTextual) (hb : b.IsTextual) :
    a.same b = true ↔ a = b := by
  obtain ⟨name, credentials, region, endpoint⟩ := a
  obtain ⟨name', credentials', region', endpoint'⟩ := b
  simp only [same, Bool.and_eq_true, mk.injEq,
    Json.same_iff_eq (Schema.admits_of_describes ha.name) (Schema.admits_of_describes hb.name),
    Json.same_iff_eq (Schema.admits_of_describes ha.credentials)
      (Schema.admits_of_describes hb.credentials),
    Json.same_iff_eq ha.region hb.region, Json.same_iff_eq ha.endpoint hb.endpoint, and_assoc]

namespace Record

theorem IsTextual.same_iff (hr : r.IsTextual) (hc : candidate.IsTextual) :
    r.same candidate = true ↔ r = candidate := by
  have hstate := Json.same_iff_eq (Schema.admits_of_describes hr.state)
    (Schema.admits_of_describes hc.state)
  have hdestination := Json.same_iff_eq (Schema.admits_of_describes hr.destination)
    (Schema.admits_of_describes hc.destination)
  have hprofile := Json.same_iff_eq (Schema.admits_of_describes hr.profile)
    (Schema.admits_of_describes hc.profile)
  have hcompleted := Json.same_iff_eq hr.completedAt hc.completedAt
  have hbucket : ∀ a b, r.bucket = some a → candidate.bucket = some b →
      (a.same b = true ↔ a = b) :=
    fun a b ha hb => (hr.bucket a ha).same_iff (hc.bucket b hb)
  obtain ⟨state, destination, profile, bucket, completedAt⟩ := r
  obtain ⟨state', destination', profile', bucket', completedAt'⟩ := candidate
  cases bucket <;> cases bucket' <;>
    simp_all [same, and_assoc]

/-- A candidate differs from the stored record if it is another record, or none is stored. -/
theorem differsFrom_iff (hstored : ∀ r, stored = some r → r.IsTextual)
    (hc : candidate.IsTextual) : candidate.differsFrom stored = true ↔ stored ≠ some candidate := by
  cases stored with
  | none => simp [differsFrom]
  | some r => simp [differsFrom, ← Bool.not_eq_true, (hstored r rfl).same_iff hc]

end Record

/-! ## Records of texts -/

theorem Bucket.isTextual_of_ofJson {b : Bucket} (h : Schema.bucket.describes raw = true)
    (hb : ofJson raw = .ok b) : b.IsTextual := by
  obtain ⟨name, credentials, hname, hcredentials, hregion, hendpoint, hn, hc⟩ := ofJson_eq_ok.1 hb
  refine ⟨?_, ?_, Schema.admits_of_member h rfl hregion, Schema.admits_of_member h rfl hendpoint⟩
  · rw [hn]
    exact Schema.describes_orBlank (Schema.admits_of_member h rfl hname)
  · rw [hc]
    exact Schema.describes_orBlank (Schema.admits_of_member h rfl hcredentials)

namespace Record

theorem isTextual_of_ofJson (h : Schema.record.admits raw = true)
    (hr : ofJson raw = .ok (some r)) : r.IsTextual := by
  have hread := readFrom_of_ofJson hr
  have hobject : Schema.record.describes raw = true := by
    cases raw with
    | null => cases hread.state
    | _ => exact h
  have hstate := Schema.admits_of_member hobject rfl hread.state
  obtain ⟨destination, hdestination, hdestinationEq⟩ := hread.destination
  obtain ⟨profile, hprofile, hprofileEq⟩ := hread.profile
  obtain ⟨value, hbucket, hbucketRead⟩ := hread.bucket
  refine ⟨Schema.describes_of_given hstate hread.given, hread.given, ?_, ?_, ?_,
    Schema.admits_of_member hobject rfl hread.completedAt⟩
  · rw [hdestinationEq]
    exact Schema.describes_orBlank (Schema.admits_of_member hobject rfl hdestination)
  · rw [hprofileEq]
    exact Schema.describes_orBlank (Schema.admits_of_member hobject rfl hprofile)
  · intro bucket hb
    obtain ⟨hgiven, hof⟩ := hbucketRead bucket hb
    exact Bucket.isTextual_of_ofJson
      (Schema.describes_of_given (Schema.admits_of_member hobject rfl hbucket) hgiven) hof

theorem isTextual_ofProgress {status : Option Api.JobStatus} {progress : Progress}
    {d : Destination} {profile : Json} (hp : Progress.ofStatus? status = some progress)
    (hprofile : Schema.text.describes profile = true)
    (hbucket : ∀ bucket, d.bucket = some bucket → bucket.IsTextual) :
    (ofProgress progress d profile).IsTextual where
  state := rfl
  given := by
    show (Json.str progress.stage.name).given = true
    cases progress.stage <;> decide
  destination := rfl
  profile := hprofile
  bucket := hbucket
  completedAt := by
    show Schema.text.admits (if _ then progress.completedAt else .null) = true
    split
    · rcases Progress.completedAt_cases hp with hnull | ⟨text, htext⟩
      · rw [hnull]
        rfl
      · rw [htext]
        rfl
    · rfl

end Record

theorem IsBackup.isTextual {object : Json} {b : Backup} (h : IsBackup object)
    (hb : Backup.ofJson object = .ok b) :
    Schema.text.describes b.profile = true ∧ ∀ r, b.record = some r → r.IsTextual := by
  obtain ⟨b', hb', htyped⟩ := h.read
  rw [hb] at hb'
  cases hb'
  constructor
  · obtain ⟨profile, hprofile⟩ := htyped.profile
    rw [hprofile]
    rfl
  · intro r hr
    obtain ⟨status, hstatus, hadmits⟩ := Schema.describes_member h.1 "status" rfl
    have hread := (Backup.readFrom_of_ofJson hb).record
    rw [Api.Server.memberOrNull, hstatus, hr] at hread
    exact Record.isTextual_of_ofJson hadmits hread

/-! ## Settled records -/

namespace Record

/-- The stored record is not replaced by the candidate: it is final, and it is no success without a
time of completion that the candidate would add. -/
def Settled (stored : Option Record) (candidate : Record) : Prop :=
  ∃ r, stored = some r ∧ (r.state = .str "Succeeded" ∨ r.state = .str "Failed") ∧
    ¬(r.state = .str "Succeeded" ∧ r.completedAt = .null ∧
      candidate.state = .str "Succeeded" ∧ candidate.completedAt ≠ .null)

theorem stage?_eq_some {stage : Stage} : r.stage? = some stage ↔ r.state = .str stage.name :=
  ⟨state_of_stage?, stage?_of_state⟩

theorem completes_iff : candidate.completes r = true ↔
    r.state = .str "Succeeded" ∧ r.completedAt = .null ∧
      candidate.state = .str "Succeeded" ∧ candidate.completedAt ≠ .null := by
  simp only [completes, Bool.and_eq_true, decide_eq_true_eq, Bool.not_eq_true', stage?_eq_some,
    Json.isNull_iff, ← Bool.not_eq_true, Stage.name, and_assoc, ne_eq]

theorem isFinal_iff (hatom : r.state.isAtom = true) :
    r.isFinal = .ok true ↔ r.state = .str "Succeeded" ∨ r.state = .str "Failed" := by
  rw [isFinal, if_pos hatom, Except.ok.injEq]
  cases hstage : r.stage? with
  | none =>
    have hnone : ∀ stage : Stage, r.state ≠ .str stage.name := by
      intro stage h
      rw [stage?_of_state h] at hstage
      cases hstage
    simpa using ⟨hnone .succeeded, hnone .failed⟩
  | some stage =>
    rw [state_of_stage? hstage]
    cases stage <;> simp [Stage.isFinal, Stage.name]

/-- A record whose state can be compared is closed to those candidates against which it is
settled. -/
theorem isClosedTo_iff (hatom : ∀ r, stored = some r → r.state.isAtom = true) :
    isClosedTo stored candidate = .ok true ↔ Settled stored candidate := by
  cases stored with
  | none => simp [isClosedTo, Settled]
  | some r =>
    have hfinal := isFinal_iff (hatom r rfl)
    rw [isFinal, if_pos (hatom r rfl), Except.ok.injEq] at hfinal
    rw [isClosedTo, isFinal, if_pos (hatom r rfl)]
    simp only [Except.map, Except.ok.injEq, Bool.and_eq_true, hfinal, Bool.not_eq_true',
      ← Bool.not_eq_true, completes_iff, Settled, Option.some.injEq, exists_eq_left']

end Record

/-! ## Noting progress -/

abbrev Backup.jobCall (b : Backup) (job : String) : Call := .readJob b.ns (.str job)

abbrev Backup.writeCall (b : Backup) (r : Record) : Call :=
  .replaceStatus ⟨b.ns, b.name, b.version, r⟩

section Notes

variable {b : Backup} {d : Destination} {progress : Progress}
  (hatom : ∀ r, b.record = some r → r.state.isAtom = true)

include hatom

theorem noteProgress_of_settled
    (hsettled : Record.Settled b.record (.ofProgress progress d b.profile)) :
    (noteProgress b d progress : Task τ _) = pure b.record := by
  unfold noteProgress
  dsimp only
  rw [(Record.isClosedTo_iff hatom).2 hsettled, Task.require_ok, pure_bind, if_pos rfl]

/-- Over any other record the candidate stands, and it is written if it says something else. -/
theorem noteProgress_of_open
    (hopen : ¬ Record.Settled b.record (.ofProgress progress d b.profile)) :
    (noteProgress b d progress : Task τ _) = (do
      if (Record.ofProgress progress d b.profile).differsFrom b.record then
        writeRecord b (.ofProgress progress d b.profile)
      return some (.ofProgress progress d b.profile)) := by
  obtain ⟨closed, hclosed⟩ :=
    Record.isClosedTo_of_isAtom hatom (.ofProgress progress d b.profile)
  have hfalse : closed = false := by
    cases closed with
    | false => rfl
    | true => exact absurd ((Record.isClosedTo_iff hatom).1 hclosed) hopen
  unfold noteProgress
  dsimp only
  rw [hclosed, Task.require_ok, pure_bind, hfalse]
  rfl

end Notes

/-- The record that was written stands if the write has succeeded. -/
def Backup.recorded (b : Backup) (r : Record) : Except Api.Failure Unit →
    Except Stop (Option Record)
  | .ok () => .ok (some r)
  | .error f => .error (.obstacle (.recordNotWritten ⟨b.writeCall r, f⟩))

theorem run_writeRecord (b : Backup) (r : Record) :
    (do writeRecord b r; return some r : Task τ (Option Record)).run =
      .call (b.writeCall r) fun outcome => .done (b.recorded r outcome) := by
  show Api.Program.call _ _ = Api.Program.call _ _
  congr 1
  funext outcome
  cases outcome with
  | ok _ => rfl
  | error f => rfl

/-! ## Sessions -/

def Api.Session.ShowsProgress (s : Session τ) (ns : Json) (job : String) (progress : Progress) :
    Prop :=
  ∃ status, (s.respond (.readJob ns (.str job))).1 = .ok status ∧
    Progress.ofStatus? status = some progress

/-- A session in which a backup was just read, and in which calls may fail without effect. -/
structure JustRead (s : Session τ) (t : TextKey) (object : Json) (b : Backup) : Prop where
  onlyFails : s.script.OnlyFails
  there : s.server.backups.find? t.key = some object
  names : Submissions.Names t object
  typed : IsBackup object
  read : Backup.ofJson object = .ok b

variable {s after : Session τ} {t : TextKey} {object : Json} {b : Backup} {d : Destination}
  {job : String} {progress : Progress}

theorem Api.Session.ShowsProgress.unique {ns : Json} {progress' : Progress}
    (h : s.ShowsProgress ns job progress) (h' : s.ShowsProgress ns job progress') :
    progress' = progress := by
  obtain ⟨status, hread, hprogress⟩ := h
  obtain ⟨status', hread', hprogress'⟩ := h'
  rw [hread] at hread'
  cases hread'
  rw [hprogress] at hprogress'
  exact (Option.some.inj hprogress').symm

theorem Api.Session.backups_readJob (s : Session τ) (ns name : Json) :
    (s.respond (.readJob ns name)).2.server.backups = s.server.backups :=
  backups_respond fun hwrite => by cases hwrite

namespace JustRead

theorem isAtom (h : JustRead s t object b) : ∀ r, b.record = some r → r.state.isAtom = true := by
  intro r hr
  have hstate := ((h.typed.isTextual h.read).2 r hr).state
  cases hs : r.state with
  | str _ => rfl
  | _ =>
    rw [hs] at hstate
    cases hstate

theorem afterRead (h : JustRead s t object b) (ns name : Json) :
    JustRead (s.respond (.readJob ns name)).2 t object b := by
  refine { h with onlyFails := (Session.respond_of_onlyFails h.onlyFails _).2, there := ?_ }
  rw [s.backups_readJob]
  exact h.there

/-- A record that was written is the one that the backup is then read with. -/
theorem afterWrite (h : JustRead s t object b) (hr : r.Filled)
    (hok : (s.respond (b.writeCall r)).1 = .ok ()) :
    ∃ object' b', (s.respond (b.writeCall r)).2.server.backups.find? t.key = some object' ∧
      Backup.ofJson object' = .ok b' ∧ b'.record = some r := by
  obtain ⟨hns, hname⟩ := Submissions.names_of_readFrom (Backup.readFrom_of_ofJson h.read) h.names
  rcases (Session.respond_of_onlyFails h.onlyFails _).1 with ⟨houtcome, hserver⟩ | ⟨⟨f, hf⟩, -⟩
  · rw [houtcome] at hok
    obtain ⟨object', hreplaced, hfind⟩ := Submissions.replaced_of_answer h.there hns hname hok
    obtain ⟨version, hread⟩ := Backup.ofJson_replaced h.read hreplaced
      (Record.ofJson_toJson_iff.2 hr)
    rw [hserver]
    exact ⟨object', _, hfind, hread, rfl⟩
  · rw [hf] at hok
    cases hok

end JustRead

/-! ## The ways of recording -/

/-- The candidate has to be written: the stored record is another one, and it is not settled. -/
def Record.NeedsWrite (stored : Option Record) (candidate : Record) : Prop :=
  ¬ Settled stored candidate ∧ stored ≠ some candidate

/-- What stops the recording: one of the two calls has failed, or the job was completed at a time
outside the calendar. -/
def Stop.IsOfRecording (s : Session τ) (ns : Json) (job : String) (stop : Stop) : Prop :=
  (∃ e, stop = .obstacle (.jobUnreadable e)) ∨ (∃ e, stop = .obstacle (.recordNotWritten e)) ∨
    stop = .fault .beyondCalendar ∧ ∃ status,
      (s.respond (.readJob ns (.str job))).1 = .ok status ∧ Progress.ofStatus? status = none

/-- How the recording goes, with its result, the session after it and its exchanges: there is no
progress to note, the record stands that is stored, or the candidate is written, which may fail. -/
inductive Recording (s : Session τ) (b : Backup) (job : String) (d : Destination) :
    Except Stop (Option Record) → Session τ → List Exchange → Prop where
  | unshown {result : Except Stop (Option Record)}
      (hunshown : ∀ progress, ¬ s.ShowsProgress b.ns job progress)
      (hresult : result = .ok none ∨ ∃ stop, result = .error stop ∧ stop.IsOfRecording s b.ns job) :
      Recording s b job d result (s.respond (b.jobCall job)).2
        [⟨b.jobCall job, (s.respond (b.jobCall job)).1⟩]
  | standing {progress : Progress} {r : Record} (hshown : s.ShowsProgress b.ns job progress)
      (hstands : ¬ Record.NeedsWrite b.record (.ofProgress progress d b.profile))
      (hr : b.record = some r) :
      Recording s b job d (.ok (some r)) (s.respond (b.jobCall job)).2
        [⟨b.jobCall job, (s.respond (b.jobCall job)).1⟩]
  | written {progress : Progress} {candidate : Record}
      (hshown : s.ShowsProgress b.ns job progress)
      (hcandidate : candidate = .ofProgress progress d b.profile)
      (hneeds : Record.NeedsWrite b.record candidate) {written : Session τ}
      {outcome : Except Api.Failure Unit}
      (hwrite : (s.respond (b.jobCall job)).2.respond (b.writeCall candidate) =
        (outcome, written)) :
      Recording s b job d (b.recorded candidate outcome) written
        [⟨b.jobCall job, (s.respond (b.jobCall job)).1⟩, ⟨b.writeCall candidate, outcome⟩]

theorem recordFrom_of_unshown (hunshown : ∀ progress, ¬ s.ShowsProgress b.ns job progress) :
    ∃ result, (recordFrom b d ((s.respond (b.jobCall job)).1.mapError fun failure =>
        ⟨b.jobCall job, failure⟩) : Task τ (Option Record)).run = .done result ∧
      (result = .ok none ∨ ∃ stop, result = .error stop ∧ stop.IsOfRecording s b.ns job) := by
  cases hread : (s.respond (b.jobCall job)).1 with
  | error f =>
    unfold recordFrom
    dsimp only [Except.mapError]
    split
    · exact ⟨_, rfl, .inl rfl⟩
    · exact ⟨_, rfl, .inr ⟨_, rfl, .inl ⟨_, rfl⟩⟩⟩
  | ok status =>
    cases hprogress : Progress.ofStatus? status with
    | none =>
      unfold recordFrom
      dsimp only [Except.mapError]
      rw [hprogress]
      exact ⟨_, rfl, .inr ⟨_, rfl, .inr (.inr ⟨rfl, status, hread, hprogress⟩)⟩⟩
    | some progress => exact absurd ⟨status, hread, hprogress⟩ (hunshown progress)

theorem recordFrom_of_shown (hshown : s.ShowsProgress b.ns job progress) :
    (recordFrom b d ((s.respond (b.jobCall job)).1.mapError fun failure =>
      ⟨b.jobCall job, failure⟩) : Task τ (Option Record)) = noteProgress b d progress := by
  obtain ⟨status, hread, hprogress⟩ := hshown
  rw [hread]
  unfold recordFrom
  dsimp only [Except.mapError]
  rw [hprogress]

variable [Add τ]

/-- The record of a well-typed backup is brought up to date in one of these ways. -/
theorem recording (h : JustRead s t object b) (job : String)
    (hd : ∀ bucket, d.bucket = some bucket → bucket.IsTextual) :
    ∃ result after es, Task.Runs Session.host (recordProgress b job d : Task τ _) s result after
      es [] ∧ Recording s b job d result after es := by
  -- The call for the job comes first; what follows is run in the session after it.
  have hstep : ∀ {result after es}, Task.Runs Session.host (recordFrom b d
        ((s.respond (b.jobCall job)).1.mapError fun failure => ⟨b.jobCall job, failure⟩) :
          Task τ _) (s.respond (b.jobCall job)).2 result after es [] →
      Task.Runs Session.host (recordProgress b job d : Task τ _) s result after
        (⟨b.jobCall job, (s.respond (b.jobCall job)).1⟩ :: es) [] := by
    intro result after es hrest
    rw [recordProgress_eq]
    exact .ask_bind rfl hrest
  by_cases hshown : ∃ progress, s.ShowsProgress b.ns job progress
  · obtain ⟨progress, hshown⟩ := hshown
    obtain ⟨status, -, hstatus⟩ := id hshown
    obtain ⟨hprofile, hrecord⟩ := h.typed.isTextual h.read
    have hdiffers := Record.differsFrom_iff hrecord
      (Record.isTextual_ofProgress (d := d) hstatus hprofile hd)
    have hnote := recordFrom_of_shown (d := d) hshown
    by_cases hsettled : Record.Settled b.record (.ofProgress progress d b.profile)
    · obtain ⟨r, hr, -⟩ := id hsettled
      rw [noteProgress_of_settled h.isAtom hsettled, hr] at hnote
      refine ⟨_, _, _, hstep ?_, .standing hshown (fun hneeds => hneeds.1 hsettled) hr⟩
      rw [hnote]
      exact .pure ..
    · rw [noteProgress_of_open h.isAtom hsettled] at hnote
      by_cases hnew : (Record.ofProgress progress d b.profile).differsFrom b.record = true
      · have hneeds : Record.NeedsWrite b.record (.ofProgress progress d b.profile) :=
          ⟨hsettled, hdiffers.1 hnew⟩
        rw [if_pos hnew] at hnote
        refine ⟨_, _, _, hstep ?_, .written hshown rfl hneeds rfl⟩
        rw [hnote, Task.Runs, run_writeRecord]
        exact .call rfl (.done ..)
      · have hstored : b.record = some (.ofProgress progress d b.profile) := by
          rwa [hdiffers, ne_eq, not_not] at hnew
        rw [if_neg hnew] at hnote
        refine ⟨_, _, _, hstep ?_, .standing hshown (fun hneeds => hneeds.2 hstored) hstored⟩
        rw [hnote]
        exact .pure ..
  · have hunshown : ∀ progress, ¬ s.ShowsProgress b.ns job progress := not_exists.1 hshown
    obtain ⟨result, hdone, hresult⟩ := recordFrom_of_unshown (d := d) hunshown
    refine ⟨_, _, _, hstep ?_, .unshown hunshown hresult⟩
    rw [Task.Runs, hdone]
    exact .done ..

/-! ## What the record that is given back tells -/

namespace Recording

omit [Add τ]

variable {result : Except Stop (Option Record)} {es : List Exchange}

/-- The candidate is written exactly if it has to be. -/
theorem write_iff (h : Recording s b job d result after es) (update : Api.StatusUpdate) :
    Call.replaceStatus update ∈ es.map Exchange.call ↔
      ∃ progress, s.ShowsProgress b.ns job progress ∧
        Record.NeedsWrite b.record (.ofProgress progress d b.profile) ∧
        update = ⟨b.ns, b.name, b.version, .ofProgress progress d b.profile⟩ := by
  cases h with
  | unshown hunshown =>
    simpa using fun progress hprogress => absurd hprogress (hunshown progress)
  | standing hshown hstands =>
    simp only [List.map_cons, List.map_nil, List.mem_singleton, reduceCtorEq, false_iff]
    rintro ⟨progress', hshown', hneeds, -⟩
    rw [hshown.unique hshown'] at hneeds
    exact hstands hneeds
  | written hshown hcandidate hneeds =>
    subst hcandidate
    simp only [List.map_cons, List.map_nil, List.mem_cons, reduceCtorEq, false_or,
      List.not_mem_nil, or_false, Call.replaceStatus.injEq]
    constructor
    · exact fun hupdate => ⟨_, hshown, hneeds, hupdate⟩
    · rintro ⟨progress', hshown', -, hupdate⟩
      rwa [hshown.unique hshown'] at hupdate

/-- A record that is given back is the one that the backup is then read with. -/
theorem isStored (h : Recording s b job d result after es) (hread : JustRead s t object b)
    (hd : ∀ bucket, d.bucket = some bucket → bucket.IsTextual) (hresult : result = .ok (some r)) :
    ∃ object' b', after.server.backups.find? t.key = some object' ∧
      Backup.ofJson object' = .ok b' ∧ b'.record = some r := by
  have hafter := hread.afterRead b.ns (.str job)
  cases h with
  | unshown hunshown hnone =>
    rcases hnone with rfl | ⟨stop, rfl, -⟩
    · cases hresult
    · cases hresult
  | standing hshown hstands hr =>
    cases hresult
    exact ⟨object, b, hafter.there, hread.read, hr⟩
  | @written progress candidate hshown hcandidate hneeds written outcome hwrite =>
    cases outcome with
    | error f => cases hresult
    | ok _ =>
      cases hresult
      obtain ⟨status, -, hstatus⟩ := hshown
      have hfilled := (Record.isTextual_ofProgress (d := d) hstatus
        (hread.typed.isTextual hread.read).1 hd).filled
      rw [← hcandidate] at hfilled
      have hwritten := hafter.afterWrite hfilled (congrArg Prod.fst hwrite)
      rwa [hwrite] at hwritten

theorem unchanged (h : Recording s b job d result after es)
    (hresult : ∀ r, result ≠ .ok (some r)) : after.server.backups = s.server.backups := by
  have hafter := s.backups_readJob b.ns (.str job)
  cases h with
  | unshown => exact hafter
  | standing => exact hafter
  | @written progress candidate hshown hcandidate hneeds written outcome hwrite =>
    cases outcome with
    | ok _ => exact absurd rfl (hresult candidate)
    | error f =>
      have hkept := Session.backups_respond (s := (s.respond (b.jobCall job)).2)
        (c := b.writeCall candidate) fun _ => by rw [hwrite]; rfl
      rw [hwrite] at hkept
      exact hkept.trans hafter

/-- Only the calls, and a time outside the calendar, stop the recording. -/
theorem stopped {stop : Stop} (h : Recording s b job d result after es)
    (hresult : result = .error stop) : stop.IsOfRecording s b.ns job := by
  cases h with
  | unshown hunshown hnone =>
    rcases hnone with rfl | ⟨stop', rfl, hstop⟩
    · cases hresult
    · cases hresult
      exact hstop
  | standing => cases hresult
  | @written progress candidate hshown hcandidate hneeds written outcome hwrite =>
    cases outcome with
    | ok _ => cases hresult
    | error f =>
      cases hresult
      exact .inr (.inl ⟨_, rfl⟩)

end Recording

/-- The record that is given back is the one that is stored. The candidate that the job calls for is
written exactly if the job was read and the stored record is another one and not settled. Where no
record is given back the backups are as they were. -/
theorem recordProgress_gives_what_is_stored (h : JustRead s t object b) (job : String)
    (hd : ∀ bucket, d.bucket = some bucket → bucket.IsTextual) :
    let task : Task τ (Option Record) := recordProgress b job d
    ∃ result after es, s.run task.run = (result, after) ∧
      task.run.exchanges Session.host s = es ∧
      (∀ update, Call.replaceStatus update ∈ es.map Exchange.call ↔
        ∃ progress, s.ShowsProgress b.ns job progress ∧
          Record.NeedsWrite b.record (.ofProgress progress d b.profile) ∧
          update = ⟨b.ns, b.name, b.version, .ofProgress progress d b.profile⟩) ∧
      (∀ r, result = .ok (some r) → ∃ object' b',
        after.server.backups.find? t.key = some object' ∧ Backup.ofJson object' = .ok b' ∧
          b'.record = some r) ∧
      ((∀ r, result ≠ .ok (some r)) → after.server.backups = s.server.backups) ∧
      ∀ stop, result = .error stop → stop.IsOfRecording s b.ns job := by
  intro task
  obtain ⟨result, after, es, hruns, hrecording⟩ := recording h job hd
  exact ⟨result, after, es, hruns.run, hruns.exchanges, hrecording.write_iff,
    fun r => hrecording.isStored h hd, hrecording.unchanged, fun stop => hrecording.stopped⟩

namespace Nightly

def finished : Session Rat :=
  { session {} with
    server := { (session {}).server with
      jobs := Table.empty.insert (.ofTexts "apps" "xb-nightly") ⟨none, some succeeded⟩ } }

theorem justRead_finished {b : Backup} (hb : Backup.ofJson (backup .null) = .ok b) :
    JustRead finished ("apps", "nightly") (backup .null) b where
  onlyFails := by constructor <;> simp [finished, session]
  there := rfl
  names := ⟨rfl, rfl⟩
  typed := ⟨by decide, _, rfl⟩
  read := hb

def dumps : Destination :=
  ⟨"s3://dumps/main", none, some ⟨.str "dumps", .str "", .null, .null⟩⟩

theorem isTextual_dumps : ∀ bucket, dumps.bucket = some bucket → bucket.IsTextual := by
  rintro bucket ⟨⟩
  exact ⟨rfl, rfl, rfl, rfl⟩

end Nightly

/-- The success of the nightly backup is recorded, and read back as it was given. -/
theorem recordProgress_gives_what_is_stored_nightly :
    ∃ b r after object' b', JustRead Nightly.finished ("apps", "nightly") (Nightly.backup .null) b ∧
      Nightly.finished.run (recordProgress b "xb-nightly" Nightly.dumps).run =
        (.ok (some r), after) ∧
      after.server.backups.find? (TextKey.key ("apps", "nightly")) = some object' ∧
      Backup.ofJson object' = .ok b' ∧ b'.record = some r := by
  have hrecords : (Backup.ofJson (Nightly.backup .null)).toOption.any (fun b =>
      (Nightly.finished.run
        (recordProgress b "xb-nightly" Nightly.dumps).run).1.toOption.join.isSome) = true := by
    decide +kernel
  obtain ⟨b, hb⟩ : ∃ b, Backup.ofJson (Nightly.backup .null) = .ok b := ⟨_, rfl⟩
  have hread := Nightly.justRead_finished hb
  obtain ⟨result, after, es, hrun, -, -, hstored, -⟩ :=
    recordProgress_gives_what_is_stored hread "xb-nightly" Nightly.isTextual_dumps
  rw [hb] at hrecords
  dsimp only [Except.toOption, Option.any_some] at hrecords
  rw [hrun] at hrecords
  match result, hrecords with
  | .ok (some r), _ =>
    obtain ⟨object', b', hobject', hb', hr⟩ := hstored r rfl
    exact ⟨b, r, after, object', b', hread, hrun, hobject', hb', hr⟩

end ClusterBackup
