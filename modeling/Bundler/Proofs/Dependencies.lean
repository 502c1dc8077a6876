import Bundler.Element
import Mathlib.Data.List.Nodup
import Mathlib.Logic.Relation

/-!
# Dependencies between units

The modules among some units list the names they depend on. `Units.DependsOn` is one step along
such a list and `Units.Reaches` any number of steps.
-/

namespace Bundler

/-! ### The units of a tree -/

/-- An item of two lists put together is an item of the first one or, behind all of the first one,
of the second. -/
lemma split_append {α : Type} {s t before after : List α} {a : α}
    (h : s ++ t = before ++ a :: after) :
    (∃ rest, s = before ++ a :: rest) ∨ ∃ start, before = s ++ start ∧ t = start ++ a :: after := by
  rcases List.append_eq_append_iff.mp h with ⟨start, hbefore, ht⟩ | ⟨rest, hs, hrest⟩
  · exact Or.inr ⟨start, hbefore, ht⟩
  · cases rest with
    | nil => exact Or.inr ⟨[], by simpa using hs.symm, by simpa using hrest.symm⟩
    | cons first rest =>
      obtain ⟨rfl, -⟩ : a = first ∧ after = rest ++ t := by simpa using hrest
      exact Or.inl ⟨rest, hs⟩

namespace Element

@[simp] lemma units_nil : units [] = [] := rfl

@[simp] lemma units_append (s t : List Element) : units (s ++ t) = units s ++ units t := by
  simp [units]

@[simp] lemma units_compiled (unit : CompiledUnit) (t : List Element) :
    units (.compiled unit :: t) = unit :: units t := rfl

@[simp] lemma units_map_compiled (us : List CompiledUnit) : units (us.map .compiled) = us := by
  induction us with
  | nil => rfl
  | cons u us ih => rw [List.map_cons, units_compiled, ih]

end Element

namespace Units

/-- The names of some units, in order. -/
def names (us : List CompiledUnit) : List String := us.map (·.name)

@[simp] lemma names_nil : names [] = [] := rfl

@[simp] lemma names_append (us vs : List CompiledUnit) : names (us ++ vs) = names us ++ names vs :=
  List.map_append

@[simp] lemma names_cons (u : CompiledUnit) (us : List CompiledUnit) :
    names (u :: us) = u.name :: names us := rfl

lemma mem_names {us : List CompiledUnit} {name : String} :
    name ∈ names us ↔ ∃ unit ∈ us, unit.name = name := List.mem_map

/-- Where no name is given twice, a unit is known by its name. -/
lemma eq_of_name_eq {us : List CompiledUnit} (h : (names us).Nodup) {u v : CompiledUnit}
    (hu : u ∈ us) (hv : v ∈ us) (hname : u.name = v.name) : u = v :=
  List.inj_on_of_nodup_map h hu hv hname

/-! ### Dependencies -/

/-- The module named `a` lists `b` among its dependencies. -/
def DependsOn (us : List CompiledUnit) (a b : String) : Prop :=
  ∃ unit ∈ us, unit.kind = "module" ∧ unit.name = a ∧ b ∈ unit.dependencies

/-- The name `b` is reached from `a` along the dependencies of modules. -/
def Reaches (us : List CompiledUnit) : String → String → Prop :=
  Relation.ReflTransGen (DependsOn us)

/-- No module depends on itself, directly or through others. -/
def Acyclic (us : List CompiledUnit) : Prop :=
  ∀ name, ¬ Relation.TransGen (DependsOn us) name name

variable {us vs : List CompiledUnit} {a b : String}

lemma Reaches.refl (us : List CompiledUnit) (a : String) : Reaches us a a :=
  Relation.ReflTransGen.refl

lemma DependsOn.mono (hsub : us ⊆ vs) (h : DependsOn us a b) : DependsOn vs a b := by
  obtain ⟨unit, hmem, hunit⟩ := h
  exact ⟨unit, hsub hmem, hunit⟩

lemma Reaches.mono (hsub : us ⊆ vs) (h : Reaches us a b) : Reaches vs a b :=
  Relation.ReflTransGen.mono (fun _ _ => DependsOn.mono hsub) a b h

/-- Where some first units list only each other, all that is reached from them is among them. -/
lemma Reaches.mem_names_left (hnodup : (names (us ++ vs)).Nodup)
    (hclosed : ∀ unit ∈ us, unit.dependencies ⊆ names us) (h : Reaches (us ++ vs) a b)
    (ha : a ∈ names us) : b ∈ names us := by
  induction h with
  | refl => exact ha
  | tail _ hstep ih =>
    obtain ⟨unit, hmem, -, hname, hdependency⟩ := hstep
    obtain ⟨unit', hmem', hname'⟩ := mem_names.mp ih
    have heq : unit = unit' :=
      eq_of_name_eq hnodup hmem (List.mem_append_left _ hmem') (hname.trans hname'.symm)
    exact hclosed unit' hmem' (heq ▸ hdependency)

end Units

end Bundler
