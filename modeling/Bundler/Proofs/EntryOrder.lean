import Bundler.Proofs.Closure
import Bundler.Proofs.FailedLoads

/-!
# Entries one after another

More entries at the end of a list change nothing of what the first ones give: the tree of the first
entries stands in front of the tree of all. So what stands before the unit of an entry is there for
the sake of that entry or of one before it.
-/

namespace Bundler.Compile

open Load Load.Source Bundler.Units

/-! ### What was added stays in front -/

section

variable {σ : Type} {loader : Loader σ} {view : View} {options : Options} {entry : Entry}
  {entries : List Entry} {run run' : Run σ}

lemma elements_prefix_take (run : Run σ) (reply : Reply σ) :
    run.session.elements <+: (run.take reply).session.elements := List.prefix_append _ _

/-- An evaluation is added behind all else. -/
lemma elements_prefix_addEvaluation (loader : Loader σ) (options : Options) (entry : Entry)
    (run : Run σ) :
    run.session.elements <+: (addEvaluation loader options entry run).2.session.elements := by
  unfold addEvaluation
  split
  · split
    · exact List.prefix_refl _
    · split
      · exact List.prefix_refl _
      · next session hsession =>
        unfold Session.append at hsession
        split at hsession
        · cases hsession
        · cases hsession
          exact List.prefix_append _ _
  · exact List.prefix_refl _

/-- Whatever a loader does, all that an entry adds comes behind what was there. -/
lemma elements_prefix_loadEntry (loader : Loader σ) (view : View) (options : Options)
    (entry : Entry) (run : Run σ) :
    run.session.elements <+: (loadEntry loader view options entry run).2.session.elements := by
  unfold loadEntry
  dsimp only
  split
  · exact List.prefix_append _ _
  · exact (elements_prefix_take { run with notes := run.notes ++ [entryNote entry] } _).trans
      (elements_prefix_addEvaluation _ _ _ _)

lemma elements_prefix_inOrder (h : inOrder (loadEntry loader view options) entries run
    = (.ok (), run')) : run.session.elements <+: run'.session.elements := by
  have hkeeps := inOrder_keeps (P := fun r : Run σ => run.session.elements <+: r.session.elements)
    (fun entry r hr => hr.trans (elements_prefix_loadEntry loader view options entry r)) entries
    (List.prefix_refl _)
  rwa [h] at hkeeps

end

/-! ### The order of units -/

/-- A unit of the first name stands somewhere before a unit of the second one. -/
def StandsBefore (us : List CompiledUnit) (name name' : String) : Prop :=
  ∃ before unit between unit' after, us = before ++ unit :: between ++ unit' :: after ∧
    unit.name = name ∧ unit'.name = name'

/-- What stands before a unit among the first ones is among the first ones, too. -/
lemma StandsBefore.mem_names_left {us vs : List CompiledUnit} {name name' : String}
    (hnodup : (names (us ++ vs)).Nodup) (h : StandsBefore (us ++ vs) name name')
    (hleft : name' ∈ names us) : name ∈ names us := by
  obtain ⟨before, unit, between, unit', after, hsplit, rfl, rfl⟩ := h
  rcases split_append hsplit with ⟨rest, hrest⟩ | ⟨start, -, hright⟩
  · rw [hrest]
    simp
  · -- the second unit would have its name twice
    exfalso
    rw [names_append] at hnodup
    apply hnodup.disjoint hleft
    rw [hright]
    simp

/-- What stands before the unit of an entry is reached from that entry or from one before it. -/
def FollowsEntries (options : Options) (entries : List Entry) (us : List CompiledUnit) : Prop :=
  ∀ (i : Nat) (entry : Entry) (name name' : String), entries[i]? = some entry →
    nameOf options entry = .ok name → StandsBefore us name' name →
    ∃ k ≤ i, ∃ entry' start, entries[k]? = some entry' ∧ nameOf options entry' = .ok start ∧
      Reaches us start name'

variable {reporting : Bool} {nesting : Nat} {view : View} {first later entries : List Entry}
  {options : Options} {base : Path} {memory : List (Value × String)} {answer : Option Tree}

lemma followsEntries_of_compileEntries
    (h : (compileEntries (Source.loader reporting nesting) view entries options base memory).1
      = .ok answer) :
    FollowsEntries options entries
      (Element.units (compileEntries (Source.loader reporting nesting) view entries options base
        memory).2.session.elements) := by
  intro i entry name name' hentry hname hbefore
  obtain ⟨run, hrun, hend⟩ := exists_run_of_compileEntries h
  rw [hend] at hbefore ⊢
  dsimp only at hbefore ⊢
  -- the list is cut behind the entry
  rw [← List.take_append_drop (i + 1) entries] at hrun
  obtain ⟨mid, hmid, hrest⟩ := inOrder_append_eq_ok_iff.mp hrun
  obtain ⟨asked, us, hasked, -, -, helements, hunits⟩ := loadEntries_adds _ hmid
  obtain ⟨_, us', -, -, -, helements', hunits'⟩ := loadEntries_adds _ hrest
  have hall : Element.units run.session.elements = us ++ us' := by
    rw [helements', helements]
    simp [newRun]
  rw [hall] at hbefore ⊢
  have hnodup : (names (us ++ us')).Nodup :=
    ((hunits.mono fun _ _ => trivial).append
      ((hunits'.mono fun _ _ => trivial) : Adds (fun _ => True) _ _ _ _)).nodup_names
  have hloaded : name ∈ names us := by
    obtain ⟨hlt, rfl⟩ := List.getElem?_eq_some_iff.mp hentry
    have hmem : entries[i] ∈ entries.take (i + 1) :=
      List.mem_take_iff_getElem.mpr ⟨i, by omega, rfl⟩
    obtain ⟨name₁, hname₁, hnameOf⟩ := (mem_of_mapM_eq_ok hasked).1 _ hmem
    obtain rfl : name = name₁ := Except.ok.inj (hname.symm.trans hnameOf)
    simpa [newRun] using (hunits.mem_new_iff name).mp (hunits.asked_subset hname₁)
  obtain ⟨start, hstart, hreach⟩ :=
    hunits.exists_reaches name' (hbefore.mem_names_left hnodup hloaded)
  obtain ⟨entry', hentry', hstartOf⟩ := (mem_of_mapM_eq_ok hasked).2 start hstart
  obtain ⟨k, hk, rfl⟩ := List.mem_take_iff_getElem.mp hentry'
  exact ⟨k, by omega, _, start, List.getElem?_eq_getElem (by omega), hstartOf,
    hreach.mono (List.subset_append_left _ _)⟩

/-! ### Compilations of more entries -/

/-- One compilation gives the start of what another one gives. -/
structure StartsLike {σ : Type} (part whole : Except Failure (Option Tree) × Run σ) : Prop where
  tree : ∀ tree, whole.1 = .ok (some tree) → ∃ start, part.1 = .ok (some start) ∧ start <+: tree
  listing : whole.1 = .ok none → part.1 = .ok none
  elements : part.2.session.elements <+: whole.2.session.elements

/-- Whatever the loader, a compilation that succeeds starts with that of its first entries. -/
lemma startsLike_of_compileEntries {σ : Type} {loader : Loader σ} {memory : σ}
    (h : (compileEntries loader view (first ++ later) options base memory).1 = .ok answer) :
    StartsLike (compileEntries loader view first options base memory)
      (compileEntries loader view (first ++ later) options base memory) := by
  obtain ⟨run, hrun, -⟩ := exists_run_of_compileEntries h
  obtain ⟨mid, hmid, hrest⟩ := inOrder_append_eq_ok_iff.mp hrun
  have hprefix := elements_prefix_inOrder hrest
  rw [compileEntries_of_inOrder hmid, compileEntries_of_inOrder hrun]
  cases hlisted : options.dependencyTarget.truthy with
  | true => exact ⟨nofun, fun _ => rfl, hprefix⟩
  | false =>
    refine ⟨?_, nofun, hprefix⟩
    intro tree htree
    cases htree
    exact ⟨mid.session.elements, rfl, hprefix⟩

/-- A tree holds the elements of its session. -/
lemma elements_of_compileEntries {σ : Type} {loader : Loader σ} {memory : σ} {tree : Tree}
    (h : (compileEntries loader view entries options base memory).1 = .ok (some tree)) :
    (compileEntries loader view entries options base memory).2.session.elements = tree := by
  obtain ⟨run, hrun, rfl, -⟩ := compileEntries_ok h
  rw [compileEntries_of_inOrder hrun]

/-- A compilation that succeeds starts with that of its first entries, and what stands before the
unit of an entry is there for the sake of that entry or of one before it. -/
theorem compileEntries_startsLike
    (h : (compileEntries (Source.loader reporting nesting) view (first ++ later) options base
      memory).1 = .ok answer) :
    (∃ answer', (compileEntries (Source.loader reporting nesting) view first options base
        memory).1 = .ok answer') ∧
      StartsLike (compileEntries (Source.loader reporting nesting) view first options base memory)
        (compileEntries (Source.loader reporting nesting) view (first ++ later) options base
          memory) ∧
      FollowsEntries options (first ++ later)
        (Element.units (compileEntries (Source.loader reporting nesting) view (first ++ later)
          options base memory).2.session.elements) ∧
      ∀ tree, answer = some tree →
        (compileEntries (Source.loader reporting nesting) view (first ++ later) options base
          memory).2.session.elements = tree := by
  have hstarts := startsLike_of_compileEntries h
  refine ⟨?_, hstarts, followsEntries_of_compileEntries h, ?_⟩
  · cases answer with
    | none => exact ⟨none, hstarts.listing h⟩
    | some tree =>
      obtain ⟨start, hstart, -⟩ := hstarts.tree tree h
      exact ⟨some start, hstart⟩
  · rintro tree rfl
    exact elements_of_compileEntries h

/-- What is compiled for the first entry of the project with import cycles, and for all of them. -/
theorem startsLike_cyclicEntries :
    (compileEntries (Source.loader false 8) (fun _ => cyclicProject)
      ([⟨"main.js", .module⟩] ++ [⟨"s.js", .script⟩, ⟨"lib/b", .module⟩]) {} ⟨.root, ["p"]⟩ []).1
        = .ok (some cyclicTree) ∧
    (∃ answer, (compileEntries (Source.loader false 8) (fun _ => cyclicProject)
      [⟨"main.js", .module⟩] {} ⟨.root, ["p"]⟩ []).1 = .ok answer) ∧
    StartsLike
      (compileEntries (Source.loader false 8) (fun _ => cyclicProject) [⟨"main.js", .module⟩] {}
        ⟨.root, ["p"]⟩ [])
      (compileEntries (Source.loader false 8) (fun _ => cyclicProject)
        ([⟨"main.js", .module⟩] ++ [⟨"s.js", .script⟩, ⟨"lib/b", .module⟩]) {} ⟨.root, ["p"]⟩ []) :=
  have hstarts := compileEntries_startsLike compileEntries_cyclic
  ⟨compileEntries_cyclic, hstarts.1, hstarts.2.1⟩

end Bundler.Compile
