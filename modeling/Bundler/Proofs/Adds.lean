import Bundler.Proofs.Dependencies

/-!
# What a load adds to a session

`Adds made asked old units new` says that a load of the names `asked`, in a session in which the
loads of the names `old` have begun, adds `units` and leaves the names `new`. It describes loads
that succeed, depth first: a name whose load has begun adds nothing, and any other name adds its
unit after all that its dependencies add.

Whatever is shown by induction on `Adds` holds for one load, for the loads of all dependencies of a
module and for a whole list of entries. A name whose load has begun but whose unit is not there yet
is an importer further up; such names are in `old`, and no law says that `old` has units.
-/

namespace Bundler

open Bundler.Units

/-- What a load of the names `asked` adds; `made` holds of the units. -/
inductive Adds (made : CompiledUnit → Prop) :
    (asked old : List String) → (units : List CompiledUnit) → (new : List String) → Prop where
  | nothing (old : List String) : Adds made [] old [] old
  | loaded {name : String} {old : List String} (h : name ∈ old) : Adds made [name] old [] old
  | unit {unit : CompiledUnit} {old new : List String} {units : List CompiledUnit}
      (fresh : unit.name ∉ old) (hmade : made unit)
      (hkind : unit.kind = "module" ∨ unit.dependencies = [])
      (h : Adds made unit.dependencies (unit.name :: old) units new) :
      Adds made [unit.name] old (units ++ [unit]) new
  | append {asked asked' old mid new : List String} {units units' : List CompiledUnit}
      (h : Adds made asked old units mid) (h' : Adds made asked' mid units' new) :
      Adds made (asked ++ asked') old (units ++ units') new

lemma exists_mem_of_forall₂ {R : String → String → Prop} {names names' : List String}
    (h : List.Forall₂ R names names') {name : String} (hmem : name ∈ names) :
    ∃ name' ∈ names', R name name' := by
  induction h with
  | nil => simp at hmem
  | cons hfirst _ ih =>
    rcases List.mem_cons.mp hmem with rfl | hmem
    · exact ⟨_, List.mem_cons_self, hfirst⟩
    · obtain ⟨name', hname', hrelated⟩ := ih hmem
      exact ⟨name', List.mem_cons_of_mem _ hname', hrelated⟩

namespace Adds

variable {made made' : CompiledUnit → Prop} {asked old new : List String}
  {units : List CompiledUnit}

lemma mono (hmade : ∀ unit, made unit → made' unit) (h : Adds made asked old units new) :
    Adds made' asked old units new := by
  induction h with
  | nothing old => exact .nothing old
  | loaded h => exact .loaded h
  | unit fresh hunit hkind _ ih => exact .unit fresh (hmade _ hunit) hkind ih
  | append _ _ ih ih' => exact .append ih ih'

lemma made_of_mem (h : Adds made asked old units new) : ∀ unit ∈ units, made unit := by
  induction h with
  | nothing old => simp
  | loaded h => simp
  | @unit u _ _ _ _ hmade _ _ ih =>
    intro unit hmem
    rcases List.mem_append.mp hmem with hmem | hmem
    · exact ih unit hmem
    · obtain rfl : unit = u := List.mem_singleton.mp hmem
      exact hmade
  | append _ _ ih ih' =>
    intro unit hmem
    exact (List.mem_append.mp hmem).elim (ih unit) (ih' unit)

/-- The names after a load are the names before it and those of the units it adds. -/
lemma mem_new_iff (h : Adds made asked old units new) (name : String) :
    name ∈ new ↔ name ∈ old ∨ name ∈ names units := by
  induction h with
  | nothing old => simp
  | loaded h => simp
  | unit _ _ _ _ ih =>
    simp only [ih, List.mem_cons, names_append, List.mem_append, names_cons, names_nil,
      List.not_mem_nil, or_false]
    tauto
  | append _ _ ih ih' => rw [ih', ih, names_append, List.mem_append, or_assoc]

/-- What a load into a new session leaves are the names of the units. -/
lemma exists_unit (h : Adds made asked [] units new) {name : String} (hmem : name ∈ new) :
    ∃ unit ∈ units, unit.name = name := by
  simpa [h.mem_new_iff name, mem_names] using hmem

lemma old_subset (h : Adds made asked old units new) : old ⊆ new :=
  fun name hmem => (h.mem_new_iff name).mpr (Or.inl hmem)

/-- Every name that is asked for is loaded afterwards. -/
lemma asked_subset (h : Adds made asked old units new) : asked ⊆ new := by
  induction h with
  | nothing old => exact List.nil_subset _
  | loaded h => exact List.cons_subset.mpr ⟨h, List.nil_subset _⟩
  | unit _ _ _ h _ =>
    exact List.cons_subset.mpr ⟨h.old_subset List.mem_cons_self, List.nil_subset _⟩
  | append _ h' ih ih' => exact List.append_subset.mpr ⟨List.Subset.trans ih h'.old_subset, ih'⟩

/-- No unit is added under a name whose load had begun. -/
lemma fresh_of_mem (h : Adds made asked old units new) : ∀ name ∈ names units, name ∉ old := by
  induction h with
  | nothing old => simp
  | loaded h => simp
  | unit fresh _ _ _ ih =>
    intro name hmem hold
    rw [names_append, List.mem_append] at hmem
    rcases hmem with hmem | hmem
    · exact ih name hmem (List.mem_cons_of_mem _ hold)
    · obtain rfl : name = _ := List.mem_singleton.mp hmem
      exact fresh hold
  | append h _ ih ih' =>
    intro name hmem hold
    rw [names_append, List.mem_append] at hmem
    rcases hmem with hmem | hmem
    · exact ih name hmem hold
    · exact ih' name hmem (h.old_subset hold)

/-- No name is given to two units. -/
lemma nodup_names (h : Adds made asked old units new) : (names units).Nodup := by
  induction h with
  | nothing old => exact List.nodup_nil
  | loaded h => exact List.nodup_nil
  | unit _ _ _ h ih =>
    rw [names_append, names_cons, names_nil]
    refine ih.append (List.nodup_singleton _) ?_
    rw [List.disjoint_singleton]
    exact fun hmem => h.fresh_of_mem _ hmem List.mem_cons_self
  | append h h' ih ih' =>
    rw [names_append]
    refine ih.append ih' ?_
    intro name hmem hmem'
    exact h'.fresh_of_mem name hmem' ((h.mem_new_iff name).mpr (Or.inr hmem))

/-- The dependencies of the units that are added are loaded afterwards. -/
lemma dependencies_subset (h : Adds made asked old units new) :
    ∀ unit ∈ units, unit.dependencies ⊆ new := by
  induction h with
  | nothing old => simp
  | loaded h => simp
  | @unit u _ _ _ _ _ _ h ih =>
    intro unit hmem
    rcases List.mem_append.mp hmem with hmem | hmem
    · exact ih unit hmem
    · obtain rfl : unit = u := List.mem_singleton.mp hmem
      exact h.asked_subset
  | append _ h' ih ih' =>
    intro unit hmem
    rcases List.mem_append.mp hmem with hmem | hmem
    · exact List.Subset.trans (ih unit hmem) h'.old_subset
    · exact ih' unit hmem

/-- Every unit that is added is reached from a name that is asked for. -/
lemma exists_reaches (h : Adds made asked old units new) :
    ∀ name ∈ names units, ∃ start ∈ asked, Reaches units start name := by
  induction h with
  | nothing old => simp
  | loaded h => simp
  | @unit u _ _ units _ _ hkind _ ih =>
    intro name hmem
    refine ⟨u.name, List.mem_singleton_self _, ?_⟩
    rw [names_append, List.mem_append] at hmem
    rcases hmem with hmem | hmem
    · obtain ⟨start, hstart, hreach⟩ := ih name hmem
      have hmodule : u.kind = "module" := by
        rcases hkind with hkind | hdeps
        · exact hkind
        · rw [hdeps] at hstart
          cases hstart
      have hstep : DependsOn (units ++ [u]) u.name start := ⟨u, by simp, hmodule, rfl, hstart⟩
      exact Relation.ReflTransGen.head hstep (hreach.mono (List.subset_append_left _ _))
    · obtain rfl : name = u.name := List.mem_singleton.mp hmem
      exact Reaches.refl _ _
  | append _ _ ih ih' =>
    intro name hmem
    rw [names_append, List.mem_append] at hmem
    rcases hmem with hmem | hmem
    · obtain ⟨start, hstart, hreach⟩ := ih name hmem
      exact ⟨start, List.mem_append_left _ hstart, hreach.mono (List.subset_append_left _ _)⟩
    · obtain ⟨start, hstart, hreach⟩ := ih' name hmem
      exact ⟨start, List.mem_append_right _ hstart, hreach.mono (List.subset_append_right _ _)⟩

/-! ### Related loads -/

/-- Where related units depend on related names, loads of related names add related units. -/
lemma exists_related {R : String → String → Prop} {asked' new' : List String}
    {units' : List CompiledUnit} (h : Adds made asked [] units new)
    (h' : Adds made' asked' [] units' new') (hasked : List.Forall₂ R asked asked')
    (hstep : ∀ unit ∈ units, ∀ unit' ∈ units', R unit.name unit'.name →
      List.Forall₂ R unit.dependencies unit'.dependencies) :
    ∀ unit ∈ units, ∃ unit' ∈ units', R unit.name unit'.name := by
  have hreached : ∀ start ∈ asked, ∀ name, Reaches units start name →
      ∃ unit' ∈ units', R name unit'.name := by
    intro start hstart name hreach
    induction hreach with
    | refl =>
      obtain ⟨name', hname', hrelated⟩ := exists_mem_of_forall₂ hasked hstart
      obtain ⟨unit', hunit', rfl⟩ := h'.exists_unit (h'.asked_subset hname')
      exact ⟨unit', hunit', hrelated⟩
    | tail _ hdepends ih =>
      obtain ⟨importer, himporter, -, rfl, hdependency⟩ := hdepends
      obtain ⟨importer', himporter', hrelated⟩ := ih
      obtain ⟨name', hname', hrelated'⟩ :=
        exists_mem_of_forall₂ (hstep importer himporter importer' himporter' hrelated) hdependency
      obtain ⟨unit', hunit', rfl⟩ := h'.exists_unit (h'.dependencies_subset _ himporter' hname')
      exact ⟨unit', hunit', hrelated'⟩
  intro unit hunit
  obtain ⟨start, hstart, hreach⟩ := h.exists_reaches unit.name (mem_names.mpr ⟨unit, hunit, rfl⟩)
  exact hreached start hstart unit.name hreach

/-! ### Order -/

/-- A dependency of a unit stands before the unit or leads back to it, unless its load had begun
earlier. -/
lemma before_or_reaches (h : Adds made asked old units new) {before after : List CompiledUnit}
    {unit : CompiledUnit} (hsplit : units = before ++ unit :: after) {name : String}
    (hname : name ∈ unit.dependencies) :
    name ∈ old ∨ name ∈ names before ∨ Reaches units name unit.name := by
  induction h generalizing before after with
  | nothing old => simp at hsplit
  | loaded h => simp at hsplit
  | @unit u old new units fresh hmade hkind h ih =>
    rcases split_append hsplit with ⟨rest, hrest⟩ | ⟨start, rfl, hstart⟩
    · -- the unit is one of those that the dependencies of `u` add, below `u`
      rcases ih hrest with hold | hbefore | hreach
      · rcases List.mem_cons.mp hold with rfl | hold
        · have hall : Adds made [u.name] old (units ++ [u]) new := .unit fresh hmade hkind h
          obtain ⟨start, hstart, hreach⟩ := hall.exists_reaches unit.name (by simp [hrest])
          obtain rfl : start = u.name := List.mem_singleton.mp hstart
          exact Or.inr (Or.inr hreach)
        · exact Or.inl hold
      · exact Or.inr (Or.inl hbefore)
      · exact Or.inr (Or.inr (hreach.mono (List.subset_append_left _ _)))
    · -- the unit is `u` itself, behind all that its dependencies add
      obtain ⟨rfl, rfl, -⟩ : start = [] ∧ unit = u ∧ after = [] := by
        cases start <;> simp_all
      rw [List.append_nil]
      rcases (h.mem_new_iff name).mp (h.asked_subset hname) with hold | hbefore
      · rcases List.mem_cons.mp hold with rfl | hold
        · exact Or.inr (Or.inr (Reaches.refl _ _))
        · exact Or.inl hold
      · exact Or.inr (Or.inl hbefore)
  | append h h' ih ih' =>
    rcases split_append hsplit with ⟨rest, hrest⟩ | ⟨start, rfl, hstart⟩
    · rcases ih hrest with hold | hbefore | hreach
      · exact Or.inl hold
      · exact Or.inr (Or.inl hbefore)
      · exact Or.inr (Or.inr (hreach.mono (List.subset_append_left _ _)))
    · rw [names_append, List.mem_append]
      rcases ih' hstart with hmid | hbefore | hreach
      · rcases (h.mem_new_iff name).mp hmid with hold | hearlier
        · exact Or.inl hold
        · exact Or.inr (Or.inl (Or.inl hearlier))
      · exact Or.inr (Or.inl (Or.inr hbefore))
      · exact Or.inr (Or.inr (hreach.mono (List.subset_append_right _ _)))

end Adds

end Bundler
