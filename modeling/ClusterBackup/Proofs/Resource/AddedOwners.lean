import ClusterBackup.Proofs.Resource.Owned
/-!
# Adding owners

A backup cannot own a resource without metadata, nor one of another namespace, nor any resource if
it has no uid. There is no other reason to refuse it, and these are looked for in this order. An
owner that is accepted comes after those that were there, and nothing else about the resource
changes; so the owners of a list are added one after the other (`owners_are_added_in_order`).
-/

namespace ClusterBackup.Resource

variable {σ : Type} {r r' r'' : Resource σ} {m : Metadata} {b : Backup}
variable {added more : List OwnerReference}

/-! ## What changes -/

def ownerReferences (r : Resource σ) : List OwnerReference :=
  (r.metadata.bind Metadata.owners).getD []

def disowned (r : Resource σ) : Resource σ :=
  { r with metadata := r.metadata.map fun m => { m with owners := none } }

/-- The second resource has references added to those of the first, and is like it in all else. -/
structure GainsOwners (r : Resource σ) (added : List OwnerReference) (r' : Resource σ) : Prop where
  references : r'.ownerReferences = r.ownerReferences ++ added
  rest : r'.disowned = r.disowned

theorem GainsOwners.refl (r : Resource σ) : r.GainsOwners [] r :=
  ⟨(List.append_nil _).symm, rfl⟩

theorem GainsOwners.trans (h : r.GainsOwners added r') (h' : r'.GainsOwners more r'') :
    r.GainsOwners (added ++ more) r'' := by
  constructor
  · rw [h'.references, h.references, List.append_assoc]
  · rw [h'.rest, h.rest]

/-! ## What is in the way -/

def IsForeignTo (m : Metadata) (b : Backup) : Prop :=
  m.ns.given = true ∧ m.ns.equals b.ns = false

def Bars (r : Resource σ) (b : Backup) : Prop :=
  r.metadata = none ∨ (∃ m, r.metadata = some m ∧ IsForeignTo m b) ∨ b.uid.given = false

theorem bars_disowned : r.disowned.Bars b ↔ r.Bars b := by
  obtain ⟨metadata, spec⟩ := r
  cases metadata with
  | none => simp [Bars, disowned]
  | some m => simp [Bars, disowned, IsForeignTo]

theorem GainsOwners.bars_iff (h : r.GainsOwners added r') (b : Backup) :
    r'.Bars b ↔ r.Bars b := by
  rw [← bars_disowned, h.rest, bars_disowned]

variable [Manifest σ]

theorem ownedBy_of_noMetadata (h : r.metadata = none) :
    r.ownedBy b = .error (.noMetadata (Manifest.typeName σ)) := by
  rw [ownedBy, h]

theorem ownedBy_of_foreign (h : r.metadata = some m) (hforeign : IsForeignTo m b) :
    r.ownedBy b = .error (.foreignOwner m.ns m.name b.ns b.name) := by
  simp [ownedBy, h, hforeign.1, hforeign.2]

theorem ownedBy_of_noUid (h : r.metadata = some m) (hhome : ¬ IsForeignTo m b)
    (huid : b.uid.given = false) : r.ownedBy b = .error (.noUid b.ns b.name) := by
  have hns : (m.ns.given && !m.ns.equals b.ns) = false := by
    simpa [IsForeignTo] using hhome
  simp [ownedBy, h, hns, huid]

theorem ownedBy_of_bars (h : r.Bars b) : ∃ e, r.ownedBy b = .error e := by
  cases hm : r.metadata with
  | none => exact ⟨_, ownedBy_of_noMetadata hm⟩
  | some m =>
    by_cases hforeign : IsForeignTo m b
    · exact ⟨_, ownedBy_of_foreign hm hforeign⟩
    · have huid : b.uid.given = false := by
        rcases h with hnone | ⟨m', hm', hforeign'⟩ | huid
        · rw [hnone] at hm
          cases hm
        · rw [hm'] at hm
          cases hm
          exact absurd hforeign' hforeign
        · exact huid
      exact ⟨_, ownedBy_of_noUid hm hforeign huid⟩

theorem gainsOwners_of_ownedBy (h : r.ownedBy b = .ok r') : r.GainsOwners [b.asOwner] r' := by
  obtain ⟨metadata, spec⟩ := r
  cases metadata with
  | none => cases h
  | some m =>
    rw [ownedBy_eq_ok h]
    exact ⟨rfl, rfl⟩

theorem ownedBy_of_not_bars (h : ¬ r.Bars b) : ∃ r', r.ownedBy b = .ok r' := by
  obtain ⟨hm, hforeign, huid⟩ : r.metadata ≠ none ∧
      (∀ m, r.metadata = some m → ¬ IsForeignTo m b) ∧ b.uid.given = true := by
    simpa [Bars] using h
  obtain ⟨m, hm⟩ := Option.ne_none_iff_exists'.1 hm
  have hns : (m.ns.given && !m.ns.equals b.ns) = false := by
    simpa [IsForeignTo] using hforeign m hm
  simp [ownedBy, hm, hns, huid]

theorem ownedBy_error_iff : (∃ e, r.ownedBy b = .error e) ↔ r.Bars b := by
  refine ⟨fun ⟨e, he⟩ => Classical.byContradiction fun hbars => ?_, ownedBy_of_bars⟩
  obtain ⟨r', hr'⟩ := ownedBy_of_not_bars hbars
  rw [he] at hr'
  cases hr'

/-- What is said of a refused owner does not depend on the owners that are there. -/
theorem ownedBy_disowned {e : OwnershipError} :
    r.disowned.ownedBy b = .error e ↔ r.ownedBy b = .error e := by
  obtain ⟨metadata, spec⟩ := r
  cases metadata with
  | none => rfl
  | some m =>
    simp only [ownedBy, disowned, Option.map_some]
    split
    · rfl
    · split
      · rfl
      · simp

theorem GainsOwners.ownedBy_error_iff (h : r.GainsOwners added r') {e : OwnershipError} :
    r'.ownedBy b = .error e ↔ r.ownedBy b = .error e := by
  rw [← ownedBy_disowned, h.rest, ownedBy_disowned]

/-! ## Several owners -/

/-- The owners of a list that are not refused are added in its order. -/
theorem foldlM_ownedBy {bs : List Backup} (h : ∀ b ∈ bs, ¬ r.Bars b) :
    ∃ r', bs.foldlM ownedBy r = .ok r' ∧ r.GainsOwners (bs.map Backup.asOwner) r' := by
  induction bs generalizing r with
  | nil => exact ⟨r, rfl, .refl r⟩
  | cons b bs ih =>
    obtain ⟨hb, hbs⟩ := List.forall_mem_cons.1 h
    obtain ⟨owned, howned⟩ := ownedBy_of_not_bars hb
    have hgains := gainsOwners_of_ownedBy howned
    -- An owner that was added bars none of those that follow.
    obtain ⟨r', hr', hrest⟩ := ih fun c hc hbars => hbs c hc ((hgains.bars_iff c).1 hbars)
    refine ⟨r', ?_, hgains.trans hrest⟩
    rw [List.foldlM_cons, howned]
    exact hr'

/-- The first owner that is refused ends it, with what is said of it for the resource alone. -/
theorem foldlM_ownedBy_of_error {front back : List Backup} {e : OwnershipError}
    (hfront : ∀ c ∈ front, ¬ r.Bars c) (he : r.ownedBy b = .error e) :
    (front ++ b :: back).foldlM ownedBy r = .error e := by
  obtain ⟨r', hr', hgains⟩ := foldlM_ownedBy hfront
  rw [List.foldlM_append, hr']
  show (b :: back).foldlM ownedBy r' = _
  rw [List.foldlM_cons, hgains.ownedBy_error_iff.2 he]
  rfl

/-- A backup is refused as an owner exactly if the resource has no metadata, or lies in another
namespace, or the backup has no uid. Otherwise the result is the resource with the reference to the
backup after those that were there, and like it in all else. So the owners of a list that are not
refused are added in its order, and the first one that is refused ends it, as it would alone. -/
theorem owners_are_added_in_order (r : Resource σ) :
    (∀ b, (∃ e, r.ownedBy b = .error e) ↔
      r.metadata = none ∨
      (∃ m, r.metadata = some m ∧ m.ns.given = true ∧ m.ns.equals b.ns = false) ∨
      b.uid.given = false) ∧
    (∀ b r', r.ownedBy b = .ok r' → r.GainsOwners [b.asOwner] r') ∧
    (∀ bs : List Backup, (∀ b ∈ bs, ¬ r.Bars b) →
      ∃ r', bs.foldlM ownedBy r = .ok r' ∧ r.GainsOwners (bs.map Backup.asOwner) r') ∧
    ∀ (front : List Backup) b back e, (∀ c ∈ front, ¬ r.Bars c) → r.ownedBy b = .error e →
      (front ++ b :: back).foldlM ownedBy r = .error e :=
  ⟨fun _ => ownedBy_error_iff, fun _ _ => gainsOwners_of_ownedBy, fun _ => foldlM_ownedBy,
    fun _ _ _ _ => foldlM_ownedBy_of_error⟩

end ClusterBackup.Resource
