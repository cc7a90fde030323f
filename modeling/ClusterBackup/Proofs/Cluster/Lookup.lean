import ClusterBackup.Proofs.Api.ServerFrame
import ClusterBackup.Proofs.Fleet.Basic
import ClusterBackup.Proofs.Reconcile.WellTyped
/-!
# Looking up one cluster among others

All clusters of a namespace are read before the one of the name is looked for. So the first one of
the name is found exactly if every one of them can be read, and then it alone decides about the
result; the first one that cannot be read stops the lookup, whatever name is looked for
(`lookup_reads_all_clusters`).
-/

namespace ClusterBackup

open Api (Server)
open Api.Server (memberOrNull)

/-! ## Reading a list -/

section

variable {ε α β : Type} {f : α → Except ε β} {xs : List α} {ys : List β}

theorem exists_ok_of_mapM (h : xs.mapM f = .ok ys) : ∀ x ∈ xs, ∃ y, f x = .ok y := by
  induction xs generalizing ys with
  | nil => simp
  | cons x xs ih =>
    rw [List.mapM_cons] at h
    obtain ⟨y, hy, h⟩ := bind_eq_ok.1 h
    obtain ⟨rest, hrest, -⟩ := bind_eq_ok.1 h
    rw [List.forall_mem_cons]
    exact ⟨⟨y, hy⟩, ih hrest⟩

/-- The first element that cannot be read is what the reading of the list ends with. -/
theorem mapM_eq_error {front back : List α} {x : α} {e : ε} (hfront : ∀ y ∈ front, ∃ z, f y = .ok z)
    (hx : f x = .error e) : (front ++ x :: back).mapM f = .error e := by
  induction front with
  | nil =>
    rw [List.nil_append, List.mapM_cons, hx]
    rfl
  | cons y front ih =>
    obtain ⟨⟨z, hz⟩, hrest⟩ := List.forall_mem_cons.1 hfront
    rw [List.cons_append, List.mapM_cons, hz, ih hrest]
    rfl

/-- What is found first among the elements of a list is found first among what is read of them, if
the two tests agree on whatever is read. -/
theorem find?_of_mapM {p : α → Bool} {q : β → Bool} (hpq : ∀ x y, f x = .ok y → p x = q y)
    (h : xs.mapM f = .ok ys) {x : α} (hx : xs.find? p = some x) :
    ∃ y, f x = .ok y ∧ ys.find? q = some y := by
  induction xs generalizing ys with
  | nil => cases hx
  | cons first xs ih =>
    rw [List.mapM_cons] at h
    obtain ⟨y, hy, h⟩ := bind_eq_ok.1 h
    obtain ⟨rest, hrest, h⟩ := bind_eq_ok.1 h
    cases h
    rw [List.find?_cons] at hx
    rw [List.find?_cons, ← hpq first y hy]
    cases hp : p first with
    | true =>
      rw [hp] at hx
      cases hx
      exact ⟨y, hy, rfl⟩
    | false =>
      rw [hp] at hx
      exact ih hrest hx

end

/-! ## Listings -/

def Lists (response : Json) (items : List Json) : Prop :=
  ∃ value, response.member "items" = .ok value ∧ (value.orElse (.arr [])).elements? = some items

theorem lists_items (items : List Json) : Lists (.obj [("items", .arr items)]) items := by
  refine ⟨.arr items, rfl, ?_⟩
  cases items <;> rfl

namespace Cluster

variable {raw response name ns : Json} {items : List Json} {c : Cluster}

def storedName (raw : Json) : Json := (memberOrNull (memberOrNull raw "metadata") "name").orBlank

def IsFirst (raw name : Json) (items : List Json) : Prop :=
  items.find? (fun item => (storedName item).equals name) = some raw

def Readable (raw : Json) : Prop := ∃ c, ofJson raw = .ok c

theorem name_of_ofJson (h : ofJson raw = .ok c) : c.name = storedName raw := by
  unfold ofJson at h
  obtain ⟨metadata, hmetadata, h⟩ := bind_eq_ok.1 h
  obtain ⟨spec, -, h⟩ := bind_eq_ok.1 h
  obtain ⟨backup, -, h⟩ := bind_eq_ok.1 h
  dsimp only at h
  split at h
  all_goals
    obtain ⟨read, -, h⟩ := bind_eq_ok.1 h
    obtain ⟨ns, -, h⟩ := bind_eq_ok.1 h
    obtain ⟨name, hname, h⟩ := bind_eq_ok.1 h
    cases h
    rw [storedName, memberOrNull_of_member hmetadata, memberOrNull_of_orEmpty hname]

theorem listOfJson_of_lists (h : Lists response items) :
    listOfJson response = items.mapM ofJson := by
  obtain ⟨value, hvalue, helements⟩ := h
  simp only [listOfJson, hvalue, helements, bind, Except.bind]

/-- Where all objects can be read, the first one of the name is chosen. -/
theorem choose_of_readable (hlists : Lists response items) (hfirst : IsFirst raw name items)
    (hread : ∀ item ∈ items, Readable item) (hc : ofJson raw = .ok c) :
    chooseCluster ns name (.ok response) = .ok c := by
  obtain ⟨clusters, hclusters, -⟩ : ∃ clusters, items.mapM ofJson = .ok clusters ∧
      ∀ c ∈ clusters, True :=
    exists_mapM_of_forall fun item hitem => (hread item hitem).imp fun c hc => ⟨hc, trivial⟩
  -- A cluster is read with the name that it is stored with, so both are looked for alike.
  obtain ⟨found, hfound, hfind⟩ := find?_of_mapM
    (q := fun c => c.name.equals name) (fun item c hc => by rw [name_of_ofJson hc]) hclusters hfirst
  obtain rfl : found = c := Except.ok.inj (hfound.symm.trans hc)
  unfold chooseCluster
  dsimp only
  rw [listOfJson_of_lists hlists, hclusters]
  dsimp only
  rw [hfind]

theorem readable_of_choose (hlists : Lists response items)
    (h : chooseCluster ns name (.ok response) = .ok c) : ∀ item ∈ items, Readable item := by
  obtain ⟨clusters, hclusters, -⟩ := chooseCluster_ok h
  rw [listOfJson_of_lists hlists] at hclusters
  exact exists_ok_of_mapM hclusters

/-- The first object that cannot be read stops the choice of any name. -/
theorem choose_of_unreadable {front back : List Json} {broken : Json} {e : Malformed}
    (hlists : Lists response (front ++ broken :: back)) (hfront : ∀ item ∈ front, Readable item)
    (hbroken : ofJson broken = .error e) :
    chooseCluster ns name (.ok response) = .error (.fault (.malformed e)) := by
  unfold chooseCluster
  dsimp only
  rw [listOfJson_of_lists hlists, mapM_eq_error hfront hbroken]

end Cluster

/-! ## Lookups -/

variable {τ σ : Type}

def lookedUp (host : Api.Program.Host τ σ) (s : σ) (ns name : Json) : Except Stop Cluster :=
  ((lookUpCluster ns name : Task τ Cluster).run.run host s).1

theorem lookedUp_eq {host : Api.Program.Host τ σ} {s : σ} {ns response : Json}
    (h : (host.answer s (.listClusters ns)).1 = .ok response) (name : Json) :
    lookedUp host s ns name = chooseCluster ns name (.ok response) := by
  unfold lookedUp
  rw [run_lookUpCluster]
  show chooseCluster ns name (host.answer s (.listClusters ns)).1 = _
  rw [h]

open Cluster (IsFirst Readable)

/-- A cluster of the documented type that is the first one of its name in the namespace. It is found
exactly if all objects that are listed can be read. Then what the other objects hold makes no
difference: the lookup comes to the same in any other state in which the object is the first one of
the name among readable ones. The first object that cannot be read stops the lookup with its
fault. -/
theorem lookup_reads_all_clusters {host : Api.Program.Host τ σ} {s : σ}
    {ns name raw response : Json} {items : List Json}
    (hanswer : (host.answer s (.listClusters ns)).1 = .ok response) (hlists : Lists response items)
    (hfirst : IsFirst raw name items) (htyped : Schema.cluster.describes raw = true) :
    (∃ c, Cluster.ofJson raw = .ok c ∧
      (lookedUp host s ns name = .ok c ↔ ∀ item ∈ items, Readable item)) ∧
    (∀ s' response' items', (host.answer s' (.listClusters ns)).1 = .ok response' →
      Lists response' items' → IsFirst raw name items' → (∀ item ∈ items, Readable item) →
      (∀ item ∈ items', Readable item) → lookedUp host s' ns name = lookedUp host s ns name) ∧
    ∀ front broken back e, items = front ++ broken :: back → (∀ item ∈ front, Readable item) →
      Cluster.ofJson broken = .error e →
      lookedUp host s ns name = .error (.fault (.malformed e)) := by
  obtain ⟨c, hc, -⟩ := Cluster.ofJson_of_describes htyped
  rw [lookedUp_eq hanswer]
  refine ⟨⟨c, hc, Cluster.readable_of_choose hlists, ?_⟩, ?_, ?_⟩
  · intro hread
    exact Cluster.choose_of_readable hlists hfirst hread hc
  · intro s' response' items' hanswer' hlists' hfirst' hread hread'
    rw [lookedUp_eq hanswer', Cluster.choose_of_readable hlists' hfirst' hread' hc,
      Cluster.choose_of_readable hlists hfirst hread hc]
  · rintro front broken back e rfl hfront hbroken
    exact Cluster.choose_of_unreadable hlists hfront hbroken

namespace Nightly

def serving (clusters : List Json) : Server :=
  { Server.empty with clusters := clusters.map fun c => (.text "apps", c) }

def lookedUpAmong (clusters : List Json) (name : String) : Except Stop Cluster :=
  lookedUp (Server.host Rat) (serving clusters) (.str "apps") (.str name)

theorem answer_serving (clusters : List Json) :
    ((Server.host Rat).answer (serving clusters) (.listClusters (.str "apps"))).1 =
      .ok (.obj [("items", .arr clusters)]) := by
  have hlisted : ((serving clusters).clusters.filter fun c => c.1 == .text "apps").map Prod.snd =
      clusters := by
    rw [List.filter_eq_self.2 (by simp [serving]), serving, List.map_map]
    exact List.map_id clusters
  show Except.ok (Json.obj [("items", .arr (((serving clusters).clusters.filter
    fun c => c.1 == .text "apps").map Prod.snd))]) = _
  rw [hlisted]

def spareCluster : Json :=
  .obj [("metadata", .obj [("name", .str "spare")]),
    ("spec", .obj [("backup", .obj [("storages", .obj [("tape", .obj [("type", .str "lto")])])])])]

/-- A cluster with the name of a pull secret where an object with the name is wanted. -/
def brokenCluster : Json :=
  .obj [("metadata", .obj [("name", .str "other")]),
    ("spec", .obj [("backup", .obj [("imagePullSecrets", .arr [.str "registry"])])])]

theorem isFirst_cluster (others : List Json) :
    IsFirst cluster (.str "main") (cluster :: others) := by
  have hnamed : (Cluster.storedName cluster).equals (.str "main") = true := by decide
  unfold IsFirst
  rw [List.find?_cons, hnamed]

theorem describes_cluster : Schema.cluster.describes cluster = true := by decide

theorem unreadable_brokenCluster : Cluster.ofJson brokenCluster = .error .noMembers := rfl

end Nightly

/-- A cluster that cannot be read keeps another one from being found. -/
theorem unreadable_cluster_stops_lookup : ¬ ∀ (items : List Json) (name : String) (raw : Json)
    (c : Cluster), IsFirst raw (.str name) items → Schema.cluster.describes raw = true →
      Cluster.ofJson raw = .ok c → Nightly.lookedUpAmong items name = .ok c := by
  intro hall
  obtain ⟨c, hc, -⟩ := Cluster.ofJson_of_describes Nightly.describes_cluster
  have hfound := hall ([Nightly.cluster] ++ [Nightly.brokenCluster]) "main" Nightly.cluster c
    (Nightly.isFirst_cluster _) Nightly.describes_cluster hc
  rw [Nightly.lookedUpAmong, lookedUp_eq (Nightly.answer_serving _),
    Cluster.choose_of_unreadable (lists_items _) (List.forall_mem_singleton.2 ⟨c, hc⟩)
      Nightly.unreadable_brokenCluster] at hfound
  cases hfound

/-- Beside a cluster whose profile is of no use the cluster is found, as it is alone; beside one
that cannot be read it is not. -/
theorem lookup_reads_all_clusters_nightly :
    ∃ c, Cluster.ofJson Nightly.cluster = .ok c ∧
      Nightly.lookedUpAmong [Nightly.cluster, Nightly.spareCluster] "main" = .ok c ∧
      Nightly.lookedUpAmong [Nightly.cluster] "main" = .ok c ∧
      Nightly.lookedUpAmong [Nightly.cluster, Nightly.brokenCluster] "main" =
        .error (.fault (.malformed .noMembers)) := by
  have hspare : Readable Nightly.spareCluster := ⟨_, rfl⟩
  obtain ⟨⟨c, hc, hfound⟩, hsame, -⟩ := lookup_reads_all_clusters
    (Nightly.answer_serving [Nightly.cluster, Nightly.spareCluster]) (lists_items _)
    (Nightly.isFirst_cluster _) Nightly.describes_cluster
  obtain ⟨-, -, hstops⟩ := lookup_reads_all_clusters
    (Nightly.answer_serving [Nightly.cluster, Nightly.brokenCluster]) (lists_items _)
    (Nightly.isFirst_cluster _) Nightly.describes_cluster
  have hone : ∀ item ∈ [Nightly.cluster], Readable item := List.forall_mem_singleton.2 ⟨c, hc⟩
  have hboth : ∀ item ∈ [Nightly.cluster, Nightly.spareCluster], Readable item :=
    List.forall_mem_cons.2 ⟨⟨c, hc⟩, List.forall_mem_singleton.2 hspare⟩
  have halone : Nightly.lookedUpAmong [Nightly.cluster] "main" =
      Nightly.lookedUpAmong [Nightly.cluster, Nightly.spareCluster] "main" :=
    hsame _ _ _ (Nightly.answer_serving _) (lists_items _) (Nightly.isFirst_cluster []) hboth hone
  refine ⟨c, hc, hfound.2 hboth, halone.trans (hfound.2 hboth), ?_⟩
  exact hstops [Nightly.cluster] Nightly.brokenCluster [] .noMembers rfl hone
    Nightly.unreadable_brokenCluster

end ClusterBackup
