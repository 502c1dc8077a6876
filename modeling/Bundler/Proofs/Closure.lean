import Bundler.Proofs.EntryLoading

/-!
# Trees as dependency closures

The tree of a compilation holds the entries and all they depend on, each once, and each made from
its file. Dependencies stand before the units that list them, as far as import cycles permit.
-/

namespace Bundler.Compile

open Load Load.Source Bundler.Units

/-- The tree is the dependency closure of the entries; `notes` are all notes of the compilation. -/
structure IsClosure (view : View) (notes : List Note) (base : Path) (options : Options)
    (entries : List Entry) (tree : Tree) : Prop where
  distinct : (names (Element.units tree)).Nodup
  asked : ∀ entry ∈ entries, ∃ name, nameOf options entry = .ok name ∧
    name ∈ names (Element.units tree)
  dependencies : ∀ unit ∈ Element.units tree, ∀ name ∈ unit.dependencies,
    name ∈ names (Element.units tree)
  reached : ∀ name ∈ names (Element.units tree), ∃ entry ∈ entries, ∃ start,
    nameOf options entry = .ok start ∧ Reaches (Element.units tree) start name
  modules : ∀ unit ∈ Element.units tree, unit.kind = "module" →
    MadeDuring view notes (IsModule · base options) unit

variable {reporting : Bool} {nesting : Nat} {view : View} {entries : List Entry}
  {options : Options} {base : Path} {memory : List (Value × String)} {tree : Tree}

/-- A compilation that gives a tree gives the dependency closure of its entries. -/
theorem compileEntries_isClosure
    (h : (compileEntries (Source.loader reporting nesting) view entries options base memory).1
      = .ok (some tree)) :
    IsClosure view
      (compileEntries (Source.loader reporting nesting) view entries options base memory).2.notes
      base options entries tree := by
  obtain ⟨asked, loaded, hasked, hunits⟩ := compileEntries_adds h
  have hloaded : ∀ name, name ∈ loaded ↔ name ∈ names (Element.units tree) := by
    intro name
    simp [hunits.mem_new_iff name]
  refine ⟨hunits.nodup_names, ?_, ?_, ?_, ?_⟩
  · intro entry hentry
    obtain ⟨name, hname, hnameOf⟩ := (mem_of_mapM_eq_ok hasked).1 entry hentry
    exact ⟨name, hnameOf, (hloaded name).mp (hunits.asked_subset hname)⟩
  · intro unit hunit name hname
    exact (hloaded name).mp (hunits.dependencies_subset unit hunit hname)
  · intro name hname
    obtain ⟨start, hstart, hreach⟩ := hunits.exists_reaches name hname
    obtain ⟨entry, hentry, hnameOf⟩ := (mem_of_mapM_eq_ok hasked).2 start hstart
    exact ⟨entry, hentry, start, hnameOf, hreach⟩
  · intro unit hunit hkind
    obtain ⟨ns, hns, kind, hmade⟩ := hunits.made_of_mem unit hunit
    refine ⟨ns, hns, ?_⟩
    cases kind with
    | module => exact hmade
    | script =>
      rw [IsScript.kind hmade] at hkind
      simp at hkind

/-- A project with import cycles: `main.js` and both files in `lib` import each other. -/
def cyclicProject : Workspace where
  files := ⟨[
    (["p"], .directory),
    (["p", "main.js"], .file "import \"./lib/a.js\";\nimport \"./lib/b\";\n".toUTF8),
    (["p", "lib"], .directory),
    (["p", "lib", "a.js"], .file "import \"./b\";\nimport \"../main.js\";\n".toUTF8),
    (["p", "lib", "b.js"], .file "export * from \"./a.js\";\n".toUTF8),
    (["p", "s.js"], .file "start();\n".toUTF8)]⟩
  cwd := some []
  start := ⟨.root, []⟩

/-- Entries of the project, of which the last one is also a dependency of the first. -/
def cyclicEntries : List Entry := [⟨"main.js", .module⟩, ⟨"s.js", .script⟩, ⟨"lib/b", .module⟩]

/-- The tree of these entries. -/
def cyclicTree : Tree := [
  .compiled { name := "lib/b.js", text := "// lib/b.js\nexport * from \"./a.js\";",
              dependencies := ["lib/a.js"] },
  .compiled { name := "lib/a.js", text := "// lib/a.js\nimport \"./b\";\nimport \"../main.js\";",
              dependencies := ["lib/b.js", "main.js"] },
  .compiled { name := "main.js", text := "// main.js\nimport \"./lib/a.js\";\nimport \"./lib/b\";",
              dependencies := ["lib/a.js", "lib/b.js"] },
  .compiled { name := "s.js", kind := "script", text := "// s.js\nstart();" }]

lemma compileEntries_cyclic :
    (compileEntries (Source.loader false 8) (fun _ => cyclicProject) cyclicEntries {} ⟨.root, ["p"]⟩
      []).1 = .ok (some cyclicTree) :=
  eq_ok_of_toOption (by decide +kernel)

theorem isClosure_cyclicTree :
    (compileEntries (Source.loader false 8) (fun _ => cyclicProject) cyclicEntries {} ⟨.root, ["p"]⟩
      []).1 = .ok (some cyclicTree) ∧
    IsClosure (fun _ => cyclicProject)
      (compileEntries (Source.loader false 8) (fun _ => cyclicProject) cyclicEntries {}
        ⟨.root, ["p"]⟩ []).2.notes
      ⟨.root, ["p"]⟩ {} cyclicEntries cyclicTree :=
  ⟨compileEntries_cyclic, compileEntries_isClosure compileEntries_cyclic⟩

/-- Every dependency of a unit stands before it or lies on an import cycle with it; without import
cycles the tree is in topological order. -/
theorem compileEntries_ordered
    (h : (compileEntries (Source.loader reporting nesting) view entries options base memory).1
      = .ok (some tree)) :
    (∀ before unit after, tree = before ++ .compiled unit :: after →
      ∀ name ∈ unit.dependencies, name ∈ names (Element.units before) ∨
        Reaches (Element.units tree) name unit.name) ∧
    (Acyclic (Element.units tree) → ∀ before unit after, tree = before ++ .compiled unit :: after →
      ∀ name ∈ unit.dependencies, name ∈ names (Element.units before)) := by
  obtain ⟨asked, loaded, -, hunits⟩ := compileEntries_adds h
  have hordered : ∀ before unit after, tree = before ++ .compiled unit :: after →
      ∀ name ∈ unit.dependencies, name ∈ names (Element.units before) ∨
        Reaches (Element.units tree) name unit.name := by
    intro before unit after hsplit name hname
    have hsplit' : Element.units tree = Element.units before ++ unit :: Element.units after := by
      rw [hsplit, Element.units_append, Element.units_compiled]
    rcases hunits.before_or_reaches hsplit' hname with hold | hbefore | hreach
    · cases hold
    · exact Or.inl hbefore
    · exact Or.inr hreach
  refine ⟨hordered, ?_⟩
  intro hacyclic before unit after hsplit name hname
  rcases hordered before unit after hsplit name hname with hbefore | hreach
  · exact hbefore
  · -- the way back and the dependency itself make a cycle
    have hmem : unit ∈ Element.units tree := by simp [hsplit]
    obtain ⟨_, _, hmade⟩ := hunits.made_of_mem unit hmem
    have hkind : unit.kind = "module" := hmade.kind_of_mem_dependencies hname
    exact absurd (Relation.TransGen.head' ⟨unit, hmem, hkind, rfl, hname⟩ hreach)
      (hacyclic unit.name)

theorem ordered_cyclicTree :
    (compileEntries (Source.loader false 8) (fun _ => cyclicProject) cyclicEntries {} ⟨.root, ["p"]⟩
      []).1 = .ok (some cyclicTree) ∧
    ∀ before unit after, cyclicTree = before ++ .compiled unit :: after →
      ∀ name ∈ unit.dependencies, name ∈ names (Element.units before) ∨
        Reaches (Element.units cyclicTree) name unit.name :=
  ⟨compileEntries_cyclic, (compileEntries_ordered compileEntries_cyclic).1⟩

end Bundler.Compile
