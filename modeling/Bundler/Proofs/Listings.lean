import Bundler.Proofs.Closure
import Bundler.Proofs.Independence
import Bundler.Proofs.Reports
import Bundler.Proofs.Visits

/-!
# Listings

A compilation with a dependency target does what the same compilation does without one, but reports
the files that it reads and gives no tree. The tree lists units behind their dependencies, the
reports name files before those that they import; both follow one search.
-/

namespace Bundler

open Bundler.Units

/-! ### The order in which units are loaded -/

namespace Units

/-- The dependencies of the unit of a name, none if there is no such unit. -/
def dependenciesOf (us : List CompiledUnit) (name : String) : List String :=
  ((us.find? (·.name = name)).map (·.dependencies)).getD []

lemma dependenciesOf_name {us : List CompiledUnit} {unit : CompiledUnit} (h : (names us).Nodup)
    (hunit : unit ∈ us) : dependenciesOf us unit.name = unit.dependencies := by
  obtain ⟨found, hfound⟩ : ∃ found, us.find? (·.name = unit.name) = some found := by
    rw [← Option.isSome_iff_exists, List.find?_isSome]
    exact ⟨unit, hunit, by simp⟩
  have hname : found.name = unit.name := by simpa using List.find?_some hfound
  obtain rfl := eq_of_name_eq h (List.mem_of_find?_eq_some hfound) hunit hname
  rw [dependenciesOf, hfound]
  rfl

end Units

/-- The names that a load marks are those of a search along the dependencies of the units that it
adds. -/
lemma Adds.exists_order {made : CompiledUnit → Prop} {asked old new : List String}
    {units : List CompiledUnit} {next : String → List String} (h : Adds made asked old units new)
    (hnext : ∀ unit ∈ units, next unit.name = unit.dependencies) {visits : List Visit}
    (hvisits : visits.map (·.name) = asked) :
    ∃ order, Visits next visits old order ∧ new = marks order ++ old ∧
      (order.map (·.name)).Perm (names units) := by
  induction h generalizing visits with
  | nothing old =>
    obtain rfl := List.map_eq_nil_iff.mp hvisits
    exact ⟨[], .nothing old, rfl, .refl []⟩
  | loaded hmem =>
    obtain ⟨visit, rfl, rfl⟩ := List.map_eq_singleton_iff.mp hvisits
    exact ⟨[], .skip hmem (.nothing _), rfl, .refl []⟩
  | @unit unit old new units fresh _ _ _ ih =>
    obtain ⟨visit, rfl, hname⟩ := List.map_eq_singleton_iff.mp hvisits
    obtain ⟨below, hbelow, rfl, hperm⟩ := ih (fun u hu => hnext u (List.mem_append_left _ hu))
      (map_name_all unit.dependencies (.text unit.name))
    have hunit : next unit.name = unit.dependencies := hnext unit (by simp)
    refine ⟨visit :: below, ?_, ?_, ?_⟩
    · have hvisit : Visits next [visit] old (visit :: below ++ []) := by
        refine .visit (hname ▸ fresh) ?_ (.nothing _)
        rw [hname, hunit]
        exact hbelow
      simpa using hvisit
    · simp [hname]
    · rw [List.map_cons, hname, names_append]
      exact (hperm.cons unit.name).trans (List.perm_append_singleton _ _).symm
  | append _ _ ih ih' =>
    obtain ⟨visits, visits', rfl, hfirst, hrest⟩ := List.map_eq_append_iff.mp hvisits
    obtain ⟨order, horder, rfl, hperm⟩ := ih (fun u hu => hnext u (List.mem_append_left _ hu)) hfirst
    obtain ⟨order', horder', rfl, hperm'⟩ :=
      ih' (fun u hu => hnext u (List.mem_append_right _ hu)) hrest
    refine ⟨order ++ order', horder.append horder', ?_, ?_⟩
    · simp
    · rw [List.map_append, names_append]
      exact hperm.append hperm'

namespace Compile

open Load Load.Source

variable {reporting : Bool} {nesting : Nat} {view : View} {entries : List Entry}
  {options : Options} {base : Path} {memory : List (Value × String)} {target : String}

/-! ### What is listed for a tree -/

/-- The reports tell of the units of a tree, in the order of a search along their dependencies that
begins with the names asked for. -/
structure IsListing (options : Options) (base : Path) (asked : List String) (tree : Tree)
    (order : List Visit) (reports : List (Value × String)) : Prop where
  search : Visits (dependenciesOf (Element.units tree)) (Visit.all asked options.referrerName) []
    order
  inOrder : reports = order.map fun visit => reportOf options base visit.name
  ofUnits : reports.Perm ((Element.units tree).map fun unit => reportOf options base unit.name)
  /-- What no entry asks for is reported behind the unit through which it is first reached. -/
  behind : ∀ before visit after, order = before ++ visit :: after → visit.name ∈ asked ∨
    ∃ importer ∈ before, visit.referrer = .text importer.name ∧
      visit.name ∈ dependenciesOf (Element.units tree) importer.name

/-- Where all names that are marked are reported, what is reported lists the tree. -/
lemma exists_isListing {made : CompiledUnit → Prop} {asked loaded : List String} {tree : Tree}
    {reports : List (Value × String)} (hunits : Adds made asked [] (Element.units tree) loaded)
    (hreports : HasReported options base loaded reports) :
    ∃ order, IsListing options base asked tree order reports := by
  obtain ⟨order, hsearch, rfl, hperm⟩ := hunits.exists_order
    (fun _ hunit => dependenciesOf_name hunits.nodup_names hunit)
    (map_name_all asked options.referrerName)
  have hinOrder : reports = order.map fun visit => reportOf options base visit.name := by
    unfold HasReported at hreports
    simp [hreports, marks, Function.comp_def]
  refine ⟨order, hsearch, hinOrder, ?_, ?_⟩
  · have hall := hperm.map (reportOf options base)
    rw [hinOrder]
    simpa [names, Function.comp_def] using hall
  · intro before visit after hsplit
    rcases hsearch.asked_or_before hsplit with hasked | himporter
    · obtain ⟨name, hname, rfl⟩ := List.mem_map.mp hasked
      exact Or.inl hname
    · exact Or.inr himporter

/-! ### Listing instead of compiling -/

/-- How a compilation that lists files, with the given options, goes where another compilation only
gives a tree. -/
structure Lists (view : View) (entries : List Entry) (options : Options) (base : Path)
    (plain listing : Except Failure (Option Tree) × Run (List (Value × String))) : Prop where
  result : listing.1 = plain.1.map fun _ => none
  succeeds : ∀ answer, plain.1 = .ok answer → ∃ tree asked order, answer = some tree ∧
    entries.mapM (nameOf options) = .ok asked ∧
    IsListing options base asked tree order listing.2.memory
  /-- The files that have been read are those of all names that are marked, or of all but the last
  one, whose file cannot be read. -/
  fails : ∀ failure, plain.1 = .error failure → ∃ read : List String,
    listing.2.memory = read.map (reportOf options base) ∧
    (∀ name ∈ read, ∃ ns, ns <+: plain.2.notes ∧ (sourceAt? (view ns) base name).isSome) ∧
    (plain.2.session.loaded.reverse = read ∨
      ∃ name referrer, plain.2.session.loaded.reverse = read ++ [name] ∧
        Source.read (view plain.2.notes) (locate base name) name referrer = .error failure)

/-- Asking for dependencies changes neither names nor units. -/
lemma agrees_target (htarget : options.dependencyTarget.truthy = false) :
    Scope.Agrees ⟨view, base, options, reporting⟩
      ⟨view, base, { options with dependencyTarget := .text target }, true⟩ where
  options := ⟨.text target, rfl⟩
  report := by
    rintro name s _ ⟨reports, rfl⟩
    have hplain : report ⟨view, base, options, reporting⟩ (locate base name) s = (.ok (), s) := by
      simp [report, htarget]
    rw [hplain]
    unfold report
    dsimp only
    split
    · exact ⟨rfl, reports, rfl⟩
    · exact ⟨rfl, _, rfl⟩

/-- With a dependency target a compilation lists the files of the tree that it gives without one. -/
theorem compileEntries_lists (htarget : options.dependencyTarget.truthy = false)
    (hasked : target ≠ "") :
    Lists view entries { options with dependencyTarget := .text target } base
      (compileEntries (Source.loader reporting nesting) view entries options base memory)
      (compileEntries (Source.loader true nesting) view entries
        { options with dependencyTarget := .text target } base []) := by
  have htruthy : (Value.text target).truthy = true := by
    simpa [Value.truthy, Scalar.truthy] using hasked
  have hscope : Scope.Agrees ⟨view, base, options, reporting⟩
      ⟨view, base, { options with dependencyTarget := .text target }, true⟩ := agrees_target htarget
  obtain ⟨hresult, memory', base', hend⟩ := compileIn_alike nesting entries memory [] hscope
    fun _ _ _ _ => SameBy.id_iff.mpr rfl
  rw [SameBy.id_iff] at hresult
  unfold compileIn at hresult hend
  dsimp only at hresult hend
  rw [htruthy] at hresult
  refine ⟨hresult, ?_, ?_⟩
  · intro answer hplain
    rw [hplain] at hresult
    obtain ⟨asked, hnames, hunits⟩ := session_adds hplain
    have hanswer := answer_eq hplain
    rw [htarget] at hanswer
    have hreported := compileEntries_isReported htruthy hresult
    rw [hend] at hreported ⊢
    obtain ⟨order, hlisting⟩ := exists_isListing hunits hreported
    exact ⟨_, asked, order, hanswer, hnames, hlisting⟩
  · intro failure hplain
    rw [hplain] at hresult
    have hstops := compileEntries_stops htruthy hresult
    rw [hend] at hstops ⊢
    exact hstops

theorem lists_cyclicProject :
    ({} : Options).dependencyTarget.truthy = false ∧ "deps" ≠ "" ∧
    (compileEntries (Source.loader false 8) (fun _ => cyclicProject) cyclicEntries {}
      ⟨.root, ["p"]⟩ []).1 = .ok (some cyclicTree) ∧
    Lists (fun _ => cyclicProject) cyclicEntries { dependencyTarget := .text "deps" } ⟨.root, ["p"]⟩
      (compileEntries (Source.loader false 8) (fun _ => cyclicProject) cyclicEntries {}
        ⟨.root, ["p"]⟩ [])
      (compileEntries (Source.loader true 8) (fun _ => cyclicProject) cyclicEntries
        { dependencyTarget := .text "deps" } ⟨.root, ["p"]⟩ []) := by
  have htarget : ({} : Options).dependencyTarget.truthy = false := rfl
  have hasked : "deps" ≠ "" := by decide
  exact ⟨htarget, hasked, compileEntries_cyclic, compileEntries_lists htarget hasked⟩

/-- The cycle is listed from `main.js` on, the script behind it. -/
example : (compileEntries (Source.loader true 8) (fun _ => cyclicProject) cyclicEntries
    { dependencyTarget := .text "deps" } ⟨.root, ["p"]⟩ []).2.memory.map (·.2)
      = ["main.js", "lib/a.js", "lib/b.js", "s.js"] := by decide +kernel

end Compile

end Bundler
