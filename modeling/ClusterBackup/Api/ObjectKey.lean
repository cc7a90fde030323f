import ClusterBackup.Json.Atom
/-!
# Keys of objects

An object is known by its namespace and its name. Both are atoms: a list or an object cannot name
anything. Keys are ordered by namespace and then by name, where these have an order.
-/

namespace ClusterBackup

structure ObjectKey where
  ns : Atom
  name : Atom

namespace ObjectKey

def of? (ns name : Json) : Option ObjectKey := do
  return ⟨← Atom.ofJson? ns, ← Atom.ofJson? name⟩

def ofTexts (ns name : String) : ObjectKey := ⟨.text ns, .text name⟩

instance : BEq ObjectKey := ⟨fun k l => k.ns == l.ns && k.name == l.name⟩

theorem beq_def (k l : ObjectKey) : (k == l) = (k.ns == l.ns && k.name == l.name) := rfl

instance : EquivBEq ObjectKey where
  rfl {k} := by simp [beq_def]
  symm {k l} h := by
    rw [beq_def, Bool.and_eq_true] at *
    exact ⟨BEq.symm h.1, BEq.symm h.2⟩
  trans {k l m} h g := by
    rw [beq_def, Bool.and_eq_true] at *
    exact ⟨BEq.trans h.1 g.1, BEq.trans h.2 g.2⟩

/-- Whether a key comes before another one, if there is an order between them: the first parts
that are not equal decide. -/
def before? (k l : ObjectKey) : Option Bool :=
  if !(k.ns == l.ns) then k.ns.before? l.ns
  else if !(k.name == l.name) then k.name.before? l.name
  else some false

def text (k : ObjectKey) : String := k.ns.toJson.text ++ "/" ++ k.name.toJson.text

@[simp] theorem of?_str (ns name : String) :
    of? (.str ns) (.str name) = some (ofTexts ns name) := rfl

@[simp] theorem ofTexts_beq_ofTexts (ns name ns' name' : String) :
    (ofTexts ns name == ofTexts ns' name') = (ns == ns' && name == name') := by
  simp [ofTexts, beq_def]

theorem before?_ofTexts (ns name ns' name' : String) :
    (ofTexts ns name).before? (ofTexts ns' name') =
      some (decide (ns < ns' ∨ ns = ns' ∧ name < name')) := by
  by_cases hn : ns = ns'
  · subst hn
    by_cases hm : name = name' <;> simp [before?, ofTexts, hm]
  · simp [before?, ofTexts, hn]

end ObjectKey

end ClusterBackup
