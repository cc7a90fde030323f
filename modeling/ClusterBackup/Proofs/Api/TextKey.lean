import ClusterBackup.Worker.Basic
import Mathlib.Data.Prod.Lex
import Mathlib.Data.String.Basic
/-!
# Keys of texts

A key whose namespace and name are texts is known by the pair of them, and any two such keys have
an order: that of the pairs.
-/

namespace ClusterBackup

abbrev TextKey := String × String

def TextKey.key (t : TextKey) : ObjectKey := .ofTexts t.1 t.2

namespace ObjectKey

def IsText (k : ObjectKey) : Prop := ∃ t : TextKey, k = t.key

/-- The parts of a key of texts; what the other keys are mapped to does not matter. -/
def texts (k : ObjectKey) : TextKey :=
  match k with
  | ⟨.text ns, .text name⟩ => (ns, name)
  | _ => ("", "")

end ObjectKey

namespace TextKey

@[simp] theorem texts_key (t : TextKey) : t.key.texts = t := rfl

theorem isText_key (t : TextKey) : t.key.IsText := ⟨t, rfl⟩

theorem key_injective : Function.Injective key := by
  intro t u h
  rw [← texts_key t, ← texts_key u, h]

@[simp] theorem key_inj {t u : TextKey} : t.key = u.key ↔ t = u := key_injective.eq_iff

@[simp] theorem key_beq_key (t u : TextKey) : (t.key == u.key) = decide (t = u) := by
  rw [key, key, ObjectKey.ofTexts_beq_ofTexts, Bool.eq_iff_iff]
  simp [Prod.ext_iff]

theorem before?_key (t u : TextKey) :
    Ranked.before? t.key u.key = some (decide (toLex t < toLex u)) := by
  refine (ObjectKey.before?_ofTexts ..).trans ?_
  simp only [Prod.Lex.toLex_lt_toLex]

end TextKey

theorem Atom.eq_text_of_beq {a : Atom} {s : String} (h : (a == .text s) = true) : a = .text s := by
  rw [Atom.beq_def] at h
  cases a <;> simp_all [Atom.meaning]

theorem ObjectKey.eq_key_of_beq {k : ObjectKey} {t : TextKey} (h : (k == t.key) = true) :
    k = t.key := by
  obtain ⟨ns, name⟩ := k
  rw [ObjectKey.beq_def, Bool.and_eq_true] at h
  have hns : ns = .text t.1 := Atom.eq_text_of_beq h.1
  have hname : name = .text t.2 := Atom.eq_text_of_beq h.2
  rw [hns, hname]
  rfl

end ClusterBackup
