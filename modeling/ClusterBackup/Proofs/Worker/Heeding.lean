import ClusterBackup.Proofs.Record.Reading
import ClusterBackup.Proofs.Worker.Shift
import ClusterBackup.Proofs.Worker.Watching
/-!
# Events as they come

An event that comes from a stream says that an object was added, modified or deleted if it names
the object and is of one of these types; any other one changes nothing (`Worker.heed_cases`). So a
worker that heeds events is one that sees them (`Shift.run_heedAll`), and a watch is a run of such
steps (`Watch.run_follow`).
-/

namespace ClusterBackup

/-! ## Reading an event -/

/-- The event is of the type and names an object by a namespace and a name, neither of them
empty. -/
structure Json.Reports (event : Json) (type : String) (ns name : Json) : Prop where
  object : ∃ members metadata, event.member "object" = .ok (.obj members) ∧
    (Json.obj members).member "metadata" = .ok metadata ∧
    metadata.orEmpty.member "namespace" = .ok ns ∧ metadata.orEmpty.member "name" = .ok name
  type_eq : event.member "type" = .ok (.str type)
  ns_given : ns.given = true
  name_given : name.given = true

namespace Event

variable {event ns name a b : Json} {type : String} {seen : Event}

theorem ofParts_eq_changed {type : Json} : ofParts type ns name = .ok (changed a b) ↔
    (type = .str "ADDED" ∨ type = .str "MODIFIED") ∧ ns = a ∧ name = b := by
  unfold ofParts
  split
  · simp
  · simp
  · simp
  · rename_i hadded hmodified
    refine iff_of_false ?_ fun h => h.1.elim hadded hmodified
    split <;> nofun

theorem ofParts_eq_deleted {type : Json} : ofParts type ns name = .ok (deleted a b) ↔
    type = .str "DELETED" ∧ ns = a ∧ name = b := by
  unfold ofParts
  split
  · simp
  · simp
  · simp
  · rename_i hdeleted _ _
    refine iff_of_false ?_ fun h => hdeleted h.1
    split <;> nofun

theorem exists_str_of_ofParts {type : Json} (h : ofParts type ns name = .ok seen)
    (hseen : seen ≠ nothing) : ∃ s, type = .str s := by
  cases seen with
  | changed a b => exact (ofParts_eq_changed.1 h).1.elim (⟨_, ·⟩) (⟨_, ·⟩)
  | deleted a b => exact ⟨_, (ofParts_eq_deleted.1 h).1⟩
  | nothing => exact absurd rfl hseen

theorem ofJson_of_reports (h : event.Reports type ns name) :
    ofJson event = ofParts (.str type) ns name := by
  obtain ⟨members, metadata, hobject, hmetadata, hns, hname⟩ := h.object
  simp only [ofJson, hobject, bind, Except.bind]
  rw [hmetadata]
  dsimp only
  rw [hns]
  dsimp only
  rw [hname]
  dsimp only
  rw [h.ns_given, h.name_given, h.type_eq]
  rfl

theorem reports_of_ofJson (h : ofJson event = .ok seen) (hseen : seen ≠ nothing) :
    ∃ type ns name, event.Reports type ns name ∧ ofParts (.str type) ns name = .ok seen := by
  unfold ofJson at h
  obtain ⟨object, hobject, h⟩ := bind_eq_ok.1 h
  cases object with
  | obj members =>
    obtain ⟨metadata, hmetadata, h⟩ := bind_eq_ok.1 h
    obtain ⟨ns, hns, h⟩ := bind_eq_ok.1 h
    obtain ⟨name, hname, h⟩ := bind_eq_ok.1 h
    split at h
    · rename_i hgiven
      rw [Bool.and_eq_true] at hgiven
      obtain ⟨type, htype, hparts⟩ := bind_eq_ok.1 h
      obtain ⟨type, rfl⟩ := exists_str_of_ofParts hparts hseen
      exact ⟨type, ns, name, ⟨⟨members, metadata, hobject, hmetadata, hns, hname⟩, htype,
        hgiven.1, hgiven.2⟩, hparts⟩
    · exact absurd (Except.ok.inj h).symm hseen
  | _ => exact absurd (Except.ok.inj h).symm hseen

/-- An event is read as a change of an object exactly if it reports that the object was added or
modified, and as its deletion exactly if it reports that. -/
theorem ofJson_eq_changed : ofJson event = .ok (changed ns name) ↔
    event.Reports "ADDED" ns name ∨ event.Reports "MODIFIED" ns name := by
  constructor
  · intro h
    obtain ⟨type, ns', name', hreports, hparts⟩ := reports_of_ofJson h nofun
    obtain ⟨htype, rfl, rfl⟩ := ofParts_eq_changed.1 hparts
    rcases htype with htype | htype
    · obtain rfl := Json.str.inj htype
      exact .inl hreports
    · obtain rfl := Json.str.inj htype
      exact .inr hreports
  · rintro (h | h)
    · exact ofJson_of_reports h
    · exact ofJson_of_reports h

theorem ofJson_eq_deleted : ofJson event = .ok (deleted ns name) ↔
    event.Reports "DELETED" ns name := by
  constructor
  · intro h
    obtain ⟨type, ns', name', hreports, hparts⟩ := reports_of_ofJson h nofun
    obtain ⟨htype, rfl, rfl⟩ := ofParts_eq_deleted.1 hparts
    obtain rfl := Json.str.inj htype
    exact hreports
  · exact ofJson_of_reports

end Event

/-! ## Heeding an event -/

variable {τ : Type} [Seconds τ]

namespace Worker

theorem heed_of_ok {event : Json} {seen : Event} (h : Event.ofJson event = .ok seen)
    (w : Worker τ) (now : τ) :
    w.heed now event = ((w.observe now seen).1.isOk, (w.observe now seen).2) := by
  simp only [heed, h]
  generalize w.observe now seen = observed
  obtain ⟨_ | _, _⟩ := observed <;> rfl

theorem heed_of_error {event : Json} {e : Malformed} (h : Event.ofJson event = .error e)
    (w : Worker τ) (now : τ) : w.heed now event = (false, w) := by
  simp only [heed, h]

/-- An event that reports an object to be added or modified is taken for a change of it, one that
reports it to be deleted for its deletion, and any other event changes nothing. -/
theorem heed_cases (w : Worker τ) (now : τ) (event : Json) :
    (∃ ns name, (event.Reports "ADDED" ns name ∨ event.Reports "MODIFIED" ns name) ∧
        w.heed now event = ((w.observe now (.changed ns name)).1.isOk,
          (w.observe now (.changed ns name)).2)) ∨
      (∃ ns name, event.Reports "DELETED" ns name ∧
        w.heed now event = ((w.observe now (.deleted ns name)).1.isOk,
          (w.observe now (.deleted ns name)).2)) ∨
      (∀ ns name, ¬ event.Reports "ADDED" ns name ∧ ¬ event.Reports "MODIFIED" ns name ∧
        ¬ event.Reports "DELETED" ns name) ∧ (w.heed now event).2 = w := by
  have hother : (∀ ns name, Event.ofJson event ≠ .ok (.changed ns name)) →
      (∀ ns name, Event.ofJson event ≠ .ok (.deleted ns name)) →
      ∀ ns name, ¬ event.Reports "ADDED" ns name ∧ ¬ event.Reports "MODIFIED" ns name ∧
        ¬ event.Reports "DELETED" ns name := by
    intro hchanged hdeleted ns name
    refine ⟨fun h => ?_, fun h => ?_, fun h => ?_⟩
    · exact hchanged ns name (Event.ofJson_eq_changed.2 (.inl h))
    · exact hchanged ns name (Event.ofJson_eq_changed.2 (.inr h))
    · exact hdeleted ns name (Event.ofJson_eq_deleted.2 h)
  cases h : Event.ofJson event with
  | error e =>
    rw [h] at hother
    exact .inr (.inr ⟨hother nofun nofun, by rw [heed_of_error h]⟩)
  | ok seen =>
    cases seen with
    | changed ns name => exact .inl ⟨ns, name, Event.ofJson_eq_changed.1 h, heed_of_ok h w now⟩
    | deleted ns name =>
      exact .inr (.inl ⟨ns, name, Event.ofJson_eq_deleted.1 h, heed_of_ok h w now⟩)
    | nothing =>
      rw [h] at hother
      refine .inr (.inr ⟨hother nofun nofun, ?_⟩)
      rw [heed_of_ok h]
      rfl

/-- What a worker sees when it heeds events: those that can be read. -/
def sightings (now : τ) : Worker τ → List Json → List (Deed τ)
  | _, [] => []
  | w, event :: events =>
    match Event.ofJson event with
    | .error _ => sightings now w events
    | .ok seen =>
      .saw now seen (w.observe now seen).1 :: sightings now (w.heed now event).2 events

theorem eq_saw_of_mem_sightings {now : τ} {w : Worker τ} {events : List Json} {d : Deed τ}
    (hd : d ∈ w.sightings now events) : ∃ seen result, d = .saw now seen result := by
  induction events generalizing w with
  | nil => exact absurd hd List.not_mem_nil
  | cons event events ih =>
    unfold sightings at hd
    split at hd
    · exact ih hd
    · rcases List.mem_cons.1 hd with rfl | hd
      · exact ⟨_, _, rfl⟩
      · exact ih hd

end Worker

/-! ## Following a watch -/

namespace Shift

theorem step_heed {event : Json} {seen : Event} (h : Event.ofJson event = .ok seen) (s : Shift τ) :
    Step s (.saw s.now seen (s.worker.observe s.now seen).1)
      { s with worker := (s.worker.heed s.now event).2 } := by
  rw [Worker.heed_of_ok h]
  exact .see seen

/-- Heeding events is a run in which those are seen that can be read. -/
theorem run_heedAll (s : Shift τ) (events : List Json) :
    Run s (s.worker.sightings s.now events)
      { s with worker := s.worker.heedAll s.now events } := by
  induction events generalizing s with
  | nil => exact .refl
  | cons event events ih =>
    cases h : Event.ofJson event with
    | error e =>
      simp only [Worker.sightings, Worker.heedAll, List.foldl_cons, Worker.heed_of_error h, h]
      exact ih s
    | ok seen =>
      simp only [Worker.sightings, h]
      exact (step_heed h s).run.trans (ih _)

end Shift

def WatchDeed.heeded? {τ : Type} : WatchDeed τ → Option Json
  | heeds event => some event
  | _ => none

open Shift (Run run_heedAll)

namespace Watch

theorem filterMap_heeded_deeds (t : Turn) :
    (t.deeds : List (WatchDeed τ)).filterMap WatchDeed.heeded? = t.heeded := by
  have hheeds : (t.heeded.map .heeds : List (WatchDeed τ)).filterMap WatchDeed.heeded? =
      t.heeded := by
    rw [List.filterMap_map]
    exact List.filterMap_some
  unfold Turn.deeds
  rw [List.cons_append, List.filterMap_cons_none rfl, List.filterMap_append, hheeds]
  cases t.ending with
  | usual => exact List.append_nil _
  | broken => exact List.append_nil _

/-- A watch is a run in which the events are seen that it heeds, so far as they can be read. -/
theorem run_follow (s : Shift τ) (ending : WatchEnd) (streams : List Stream) (stop : Bool) :
    let watch := follow s.now ending streams { worker := s.worker, stop }
    Run s (s.worker.sightings s.now (watch.deeds.filterMap WatchDeed.heeded?))
      { s with worker := watch.worker } := by
  cases stop with
  | true =>
    unfold follow
    rw [playAll_of_stop]
    exact .refl
  | false =>
    obtain ⟨turns, -, -, -, hplays⟩ :=
      exists_turns s.now (streams ++ [ending.stream]) s.worker []
    have heeded : (turns.flatMap Turn.deeds : List (WatchDeed τ)).filterMap WatchDeed.heeded? =
        turns.flatMap Turn.heeded := by
      rw [List.filterMap_flatMap]
      simp only [filterMap_heeded_deeds]
    unfold follow
    rw [hplays]
    dsimp only
    rw [List.nil_append, heeded]
    exact run_heedAll s _

end Watch

end ClusterBackup
