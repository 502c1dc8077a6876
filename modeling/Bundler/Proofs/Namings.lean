import Bundler.Proofs.AbsoluteNames
import Bundler.Proofs.Closure
import Bundler.Proofs.EntryCounterparts
import Bundler.Proofs.FailedLoads

/-!
# Two ways to name one project

A module can be loaded with all it depends on under names that are relative to a directory, which is
the base of the session then, or under absolute names. Unless specifiers are bare, one way succeeds
where the other does, and both read the same files and make the same units of them, each under the
name that it has there. The relative way writes longer paths, so these must not get too long.
-/

namespace Bundler.Compile

open Load Load.Source Bundler.Units ModuleName Bundler.Path

variable {w : Workspace} {directory base : Path} {options : Options} {u v : CompiledUnit}
  {c c' n n' : String} {units units' : List CompiledUnit} {loaded loaded' : List String}

/-! ### Loads of counterparts -/

/-- The file at a location is one that some names lead to from a directory. -/
def IsFileOf (w : Workspace) (directory : Path) (names : List String) (loc : Location) : Prop :=
  ∃ name ∈ names, w.fileAt? (locate directory name) = some loc

/-- Modules with counterparts as names have the same source and depend on counterparts. -/
lemma exists_source_of_counterparts (hdirectory : w.HasDirectory directory)
    (hbase : base.isAbsolute = true) (hplain : ArePlain w directory loaded) (hmem : u.name ∈ loaded)
    (h : Counterparts Rooted directory base u.name v.name) (hu : IsModule w directory options u)
    (hv : IsModule w base options v) :
    List.Forall₂ (Counterparts Rooted directory base) u.dependencies v.dependencies ∧
      ∃ source, sourceAt? w directory u.name = some source ∧
        sourceAt? w base v.name = some source ∧
        u = .ofModule options u.name u.dependencies source ∧
        v = .ofModule options v.name v.dependencies source := by
  obtain ⟨source, names, hsource, hunit, hsource', hnames, hall⟩ :=
    exists_of_isModule_left hdirectory hbase hplain hmem h hu
  obtain ⟨source', hsource'', hnames', hunit'⟩ := hv
  obtain rfl : source = source' := Option.some.inj (hsource'.symm.trans hsource'')
  obtain rfl : names = v.dependencies := Except.ok.inj (hnames.symm.trans hnames')
  exact ⟨hall, source, hsource, hsource', hunit, hunit'⟩

/-- Loads of counterparts load counterparts. -/
lemma counterparts_of_adds (hdirectory : w.HasDirectory directory) (hbase : base.isAbsolute = true)
    (hplain : ArePlain w directory loaded) (hstart : Counterparts Rooted directory base c c')
    (h : Adds (IsModule w directory options) [c] [] units loaded)
    (h' : Adds (IsModule w base options) [c'] [] units' loaded') :
    (∀ u ∈ units, ∃ v ∈ units', Counterparts Rooted directory base u.name v.name) ∧
      ∀ v ∈ units', ∃ u ∈ units, Counterparts Rooted directory base u.name v.name := by
  have hstep : ∀ u ∈ units, ∀ v ∈ units', Counterparts Rooted directory base u.name v.name →
      List.Forall₂ (Counterparts Rooted directory base) u.dependencies v.dependencies := by
    intro u hu v hv hnames
    have hmem : u.name ∈ loaded := (h.mem_new_iff _).mpr (Or.inr (mem_names.mpr ⟨u, hu, rfl⟩))
    exact (exists_source_of_counterparts hdirectory hbase hplain hmem hnames
      (h.made_of_mem u hu) (h'.made_of_mem v hv)).1
  constructor
  · exact h.exists_related h' (.cons hstart .nil) hstep
  · -- the same the other way round
    apply h'.exists_related (R := fun n' n => Counterparts Rooted directory base n n') h
      (.cons hstart .nil)
    intro v hv u hu hnames
    exact (hstep u hu v hv hnames).flip

/-- A name that is loaded is the absolute name of what its counterpart leads to. -/
lemma isAbsoluteName_of_mem (hdirectory : w.HasDirectory directory) (hbase : base.isAbsolute = true)
    (hcanonical : ∀ v ∈ units', ∃ name referrer, canonical name referrer options = .ok v.name)
    (h' : Adds (IsModule w base options) [c'] [] units' loaded') (hmem : n' ∈ loaded')
    (h : Counterparts Rooted directory base n n') : IsAbsoluteName options directory n n' := by
  obtain ⟨v, hv, rfl⟩ := h'.exists_unit hmem
  obtain ⟨name, referrer, hname⟩ := hcanonical v hv
  have hmade : IsAnyUnit base options w v := ⟨.module, h'.made_of_mem v hv⟩
  exact isAbsoluteName_of_counterparts hdirectory hbase hname (hmade.fileAt? hbase).2 h

/-- Modules with counterparts as names correspond. -/
lemma corresponds_of_counterparts (hdirectory : w.HasDirectory directory)
    (hbase : base.isAbsolute = true) (hplain : ArePlain w directory loaded)
    (hcanonical : ∀ v ∈ units', ∃ name referrer, canonical name referrer options = .ok v.name)
    (h : Adds (IsModule w directory options) [c] [] units loaded)
    (h' : Adds (IsModule w base options) [c'] [] units' loaded') (hu : u ∈ units) (hv : v ∈ units')
    (hnames : Counterparts Rooted directory base u.name v.name) :
    Corresponds w options directory base u v := by
  have hmem : u.name ∈ loaded := (h.mem_new_iff _).mpr (Or.inr (mem_names.mpr ⟨u, hu, rfl⟩))
  have hmem' : v.name ∈ loaded' := (h'.mem_new_iff _).mpr (Or.inr (mem_names.mpr ⟨v, hv, rfl⟩))
  obtain ⟨hall, hsource⟩ := exists_source_of_counterparts hdirectory hbase hplain hmem hnames
    (h.made_of_mem u hu) (h'.made_of_mem v hv)
  refine ⟨isAbsoluteName_of_mem hdirectory hbase hcanonical h' hmem' hnames, ?_, hsource⟩
  have hloaded : ∀ name ∈ v.dependencies, name ∈ loaded' := h'.dependencies_subset v hv
  have hboth := (List.forall₂_and_left _ _).mpr ⟨hloaded, hall.flip⟩
  exact (hboth.imp fun _ _ hpair =>
    isAbsoluteName_of_mem hdirectory hbase hcanonical h' hpair.1 hpair.2).flip

/-- Names that are loaded as counterparts lead to the same files. -/
lemma isFileOf_iff_of_counterparts (hdirectory : w.HasDirectory directory)
    (hbase : base.isAbsolute = true) (h : Adds (IsModule w directory options) [c] [] units loaded)
    (h' : Adds (IsModule w base options) [c'] [] units' loaded')
    (hleft : ∀ u ∈ units, ∃ v ∈ units', Counterparts Rooted directory base u.name v.name)
    (hright : ∀ v ∈ units', ∃ u ∈ units, Counterparts Rooted directory base u.name v.name)
    (loc : Location) : IsFileOf w directory loaded loc ↔ IsFileOf w base loaded' loc := by
  have hsame : ∀ u ∈ units, ∀ v ∈ units', Counterparts Rooted directory base u.name v.name →
      w.fileAt? (locate directory u.name) = w.fileAt? (locate base v.name) := by
    intro u hu v hv hnames
    have hmade : IsAnyUnit directory options w u := ⟨.module, h.made_of_mem u hu⟩
    have hmade' : IsAnyUnit base options w v := ⟨.module, h'.made_of_mem v hv⟩
    rw [(hmade.fileAt? hdirectory.isAbsolute).1, (hmade'.fileAt? hbase).1]
    exact congrArg some (place_of_counterparts hdirectory.isAbsolute hbase hnames)
  have hfiles : IsFileOf w directory loaded loc ↔
      ∃ u ∈ units, w.fileAt? (locate directory u.name) = some loc := by
    simp [IsFileOf, h.mem_new_iff, mem_names]
  have hfiles' : IsFileOf w base loaded' loc ↔
      ∃ v ∈ units', w.fileAt? (locate base v.name) = some loc := by
    simp [IsFileOf, h'.mem_new_iff, mem_names]
  rw [hfiles, hfiles']
  constructor
  · rintro ⟨u, hu, hloc⟩
    obtain ⟨v, hv, hnames⟩ := hleft u hu
    exact ⟨v, hv, by rw [← hsame u hu v hv hnames, hloc]⟩
  · rintro ⟨v, hv, hloc⟩
    obtain ⟨u, hu, hnames⟩ := hright v hv
    exact ⟨u, hu, by rw [hsame u hu v hv hnames, hloc]⟩

/-! ### Both compilations -/

variable {reporting : Bool} {nesting nesting' : Nat} {entry relative : Entry}
  {answer : Option Tree}

/-- A compilation of entries while no file changes. -/
def compileStill (reporting : Bool) (nesting : Nat) (w : Workspace) (entries : List Entry)
    (options : Options) (base : Path) : Except Failure (Option Tree) × Run (List (Value × String)) :=
  compileEntries (Source.loader reporting nesting) (fun _ => w) entries options base []

/-- What a single module adds is modules, all of which have canonical names. -/
lemma exists_modules (hkind : entry.kind = .module)
    (h : (compileStill reporting nesting w [entry] options base).1 = .ok answer) :
    ∃ name, nameOf options entry = .ok name ∧
      Adds (IsModule w base options) [name] []
        (Element.units
          (compileStill reporting nesting w [entry] options base).2.session.elements)
        (compileStill reporting nesting w [entry] options base).2.session.loaded ∧
      ∀ unit ∈ Element.units
          (compileStill reporting nesting w [entry] options base).2.session.elements,
        ∃ name referrer, canonical name referrer options = .ok unit.name := by
  obtain ⟨name, hname, hunits⟩ := session_adds_single h
  rw [hkind] at hunits
  refine ⟨name, hname, hunits.mono ?_, ?_⟩
  · rintro unit ⟨_, -, hmade⟩
    exact hmade
  · have hnames : [entry].mapM (nameOf options) = .ok [name] :=
      mapM_cons_eq_ok_iff.mpr ⟨name, [], hname, rfl, rfl⟩
    have hall := hunits.mono fun _ => MadeDuring.mono (List.prefix_refl _)
      fun _ _ hmade => (⟨.module, hmade⟩ : IsAnyUnit base options _ _)
    intro unit hunit
    exact exists_canonical hnames hall hunit

/-- A module whose file cannot be read gives no answer, and its load ends. -/
lemma compileStill_of_sourceAt? (reporting : Bool) (nesting : Nat) (hkind : entry.kind = .module)
    (hname : nameOf options entry = .ok c) (hsource : sourceAt? w base c = none) :
    (¬ ∃ answer, (compileStill reporting (nesting + 1) w [entry] options base).1 = .ok answer) ∧
      (compileStill reporting (nesting + 1) w [entry] options base).1 ≠ .error .nestedTooDeep := by
  constructor
  · rintro ⟨answer, h⟩
    obtain ⟨name, hasked, hunits, -⟩ := exists_modules hkind h
    obtain rfl : c = name := Except.ok.inj (hname.symm.trans hasked)
    obtain ⟨unit, hunit, rfl⟩ := hunits.exists_unit (hunits.asked_subset List.mem_cons_self)
    obtain ⟨source, hsome, -⟩ := hunits.made_of_mem unit hunit
    rw [hsource] at hsome
    cases hsome
  · intro h
    obtain ⟨e, hmem, notes, s, t, hload, -⟩ := compileEntries_error h
    obtain rfl : e = entry := List.mem_singleton.mp hmem
    unfold load callOf at hload
    rw [hkind] at hload
    rcases loadModule_error hload with ⟨hnone, -⟩ | ⟨name, hasked, -, henter | ⟨_, _, henter, -⟩⟩
    · exact isPlain_canonical hnone
    · exact isPlain_enter henter
    · obtain rfl : c = name := Except.ok.inj (hname.symm.trans hasked)
      obtain ⟨-, -, -, hsome⟩ := enter_ok henter
      rw [hsource] at hsome
      cases hsome

/-- Two sessions have read the same files and hold corresponding units. -/
structure SessionsAgree (w : Workspace) (options : Options) (directory base : Path)
    (session session' : Session) : Prop where
  files : ∀ loc, IsFileOf w directory session.loaded loc ↔ IsFileOf w base session'.loaded loc
  left : ∀ u ∈ Element.units session.elements, ∃ v ∈ Element.units session'.elements,
    Corresponds w options directory base u v
  right : ∀ v ∈ Element.units session'.elements, ∃ u ∈ Element.units session.elements,
    Corresponds w options directory base u v

/-- Two compilations of one project give answers together, and agree then. -/
structure Agree (w : Workspace) (options : Options) (directory base : Path)
    (run run' : Except Failure (Option Tree) × Run (List (Value × String))) : Prop where
  answers : (∃ answer, run.1 = .ok answer) ↔ ∃ answer, run'.1 = .ok answer
  sessions : (∃ answer, run.1 = .ok answer) →
    SessionsAgree w options directory base run.2.session run'.2.session

section

variable (hdirectory : w.HasDirectory directory) (hbase : base.isAbsolute = true)
  (hkind : entry.kind = .module) (hkind' : relative.kind = .module)
  (hplain : ArePlain w directory
    (compileStill reporting nesting w [relative] options directory).2.session.loaded)
  (hname : nameOf options relative = .ok c) (hname' : nameOf options entry = .ok c')
  (hstart : Counterparts Rooted directory base c c')
include hdirectory hbase hkind hkind' hplain hname hname' hstart

/-- If the relative names lead to all that is needed, then so do the absolute ones. -/
lemma ok_of_relative_ok
    (hends : (compileStill reporting nesting' w [entry] options base).1 ≠ .error .nestedTooDeep)
    (h : (compileStill reporting nesting w [relative] options directory).1 = .ok answer) :
    ∃ answer, (compileStill reporting nesting' w [entry] options base).1 = .ok answer := by
  obtain ⟨name, hasked, hunits, -⟩ := exists_modules hkind' h
  obtain rfl : c = name := Except.ok.inj (hname.symm.trans hasked)
  apply compileEntries_ok_of_good (fun n' => ∃ n ∈ (compileStill reporting nesting w
      [relative] options directory).2.session.loaded, Counterparts Rooted directory base n n')
    hkind (canReport_of_compileEntries hkind' h) hname' _ _ hends
  · exact ⟨c, hunits.asked_subset List.mem_cons_self, hstart⟩
  · rintro n' - ⟨n, hmem, hn⟩
    obtain ⟨u, hu, rfl⟩ := hunits.exists_unit hmem
    obtain ⟨source, names, -, -, hsource, hnames, hall⟩ := exists_of_isModule_left hdirectory hbase
      hplain hmem hn (hunits.made_of_mem u hu)
    refine ⟨source, names, hsource, hnames, ?_⟩
    intro d' hd'
    obtain ⟨d, hd, hcounterparts⟩ := exists_mem_of_forall₂ hall.flip hd'
    exact ⟨d, hunits.dependencies_subset u hu hd, hcounterparts⟩

/-- If the absolute names lead to all that is needed, then so do the relative ones. -/
lemma relative_ok_of_ok
    (hends : (compileStill reporting nesting w [relative] options directory).1
      ≠ .error .nestedTooDeep)
    (h : (compileStill reporting nesting' w [entry] options base).1 = .ok answer) :
    ∃ answer, (compileStill reporting nesting w [relative] options directory).1 = .ok answer := by
  obtain ⟨name, hasked, hunits, -⟩ := exists_modules hkind h
  obtain rfl : c' = name := Except.ok.inj (hname'.symm.trans hasked)
  apply compileEntries_ok_of_good (fun n => ∃ n' ∈ (compileStill reporting nesting' w
      [entry] options base).2.session.loaded, Counterparts Rooted directory base n n')
    hkind' (canReport_of_compileEntries hkind h) hname _ _ hends
  · exact ⟨c', hunits.asked_subset List.mem_cons_self, hstart⟩
  · rintro n hmem ⟨n', hmem', hn⟩
    obtain ⟨v, hv, rfl⟩ := hunits.exists_unit hmem'
    obtain ⟨source, names, hsource, hnames, hall⟩ := exists_of_isModule_right hdirectory hbase
      hplain hmem hn (hunits.made_of_mem v hv)
    refine ⟨source, names, hsource, hnames, ?_⟩
    intro d hd
    obtain ⟨d', hd', hcounterparts⟩ := exists_mem_of_forall₂ hall hd
    exact ⟨d', hunits.dependencies_subset v hv hd', hcounterparts⟩

/-- Compilations of counterparts agree. -/
lemma agree_of_counterparts
    (hends : (compileStill reporting nesting w [relative] options directory).1
      ≠ .error .nestedTooDeep)
    (hends' : (compileStill reporting nesting' w [entry] options base).1 ≠ .error .nestedTooDeep) :
    Agree w options directory base (compileStill reporting nesting w [relative] options directory)
      (compileStill reporting nesting' w [entry] options base) := by
  have hright : (∃ answer, (compileStill reporting nesting w [relative] options directory).1
      = .ok answer) → ∃ answer, (compileStill reporting nesting' w [entry] options base).1
        = .ok answer := by
    rintro ⟨answer, h⟩
    exact ok_of_relative_ok hdirectory hbase hkind hkind' hplain hname hname' hstart hends' h
  refine ⟨⟨hright, ?_⟩, ?_⟩
  · rintro ⟨answer, h⟩
    exact relative_ok_of_ok hdirectory hbase hkind hkind' hplain hname hname' hstart hends h
  · intro hok
    obtain ⟨answer', h'⟩ := hright hok
    obtain ⟨answer, h⟩ := hok
    obtain ⟨name, hasked, hunits, -⟩ := exists_modules hkind' h
    obtain ⟨name', hasked', hunits', hcanonical⟩ := exists_modules hkind h'
    obtain rfl : c = name := Except.ok.inj (hname.symm.trans hasked)
    obtain rfl : c' = name' := Except.ok.inj (hname'.symm.trans hasked')
    obtain ⟨hleft, hright⟩ := counterparts_of_adds hdirectory hbase hplain hstart hunits hunits'
    refine ⟨isFileOf_iff_of_counterparts hdirectory hbase hunits hunits' hleft hright, ?_, ?_⟩
    · intro u hu
      obtain ⟨v, hv, hnames⟩ := hleft u hu
      exact ⟨v, hv, corresponds_of_counterparts hdirectory hbase hplain hcanonical hunits hunits'
        hu hv hnames⟩
    · intro v hv
      obtain ⟨u, hu, hnames⟩ := hright v hv
      exact ⟨u, hu, corresponds_of_counterparts hdirectory hbase hplain hcanonical hunits hunits'
        hu hv hnames⟩

end

/-- A module that is loaded by its name relative to a directory, and by its absolute name, reads the
same files and makes corresponding units both ways, if both ways end. -/
theorem agree_of_resolveAll {entries entries' : List Entry} (hdirectory : w.HasDirectory directory)
    (hbase : base.isAbsolute = true) (hwell : base.WellFormed) (hkind : entry.kind = .module)
    (hreferrer : options.referrerName.truthy = false)
    (hroot : (Path.resolve entry.name base).anchor = .root)
    (hbackslash : ∀ s ∈ (Path.resolve entry.name base).segments, '\\' ∉ s.toList)
    (houtside : ¬ (Path.resolve entry.name base).segments <+: directory.segments)
    (hentries : Entry.resolveAll w base (some directory) [entry] = .ok entries)
    (hentries' : Entry.resolveAll w base none [entry] = .ok entries')
    (hplain : ArePlain w directory
      (compileStill reporting nesting w entries options directory).2.session.loaded)
    (hends : (compileStill reporting nesting w entries options directory).1
      ≠ .error .nestedTooDeep)
    (hends' : (compileStill reporting nesting' w entries' options base).1
      ≠ .error .nestedTooDeep) :
    Agree w options directory base (compileStill reporting nesting w entries options directory)
      (compileStill reporting nesting' w entries' options base) := by
  obtain ⟨relative, hrelative, hkind', hnames⟩ := Entry.counterparts_of_entry (w := w)
    hbase hwell hdirectory.isAbsolute hdirectory.normal hbackslash houtside (Or.inl hreferrer)
    (show Rooted .relative _ from hroot) rfl
  obtain rfl : entries = [relative] := by
    rw [Entry.resolveAll, List.mapM_cons, hrelative] at hentries
    exact (Except.ok.inj hentries).symm
  obtain rfl : entries' = [entry.resolve base] := (Except.ok.inj hentries').symm
  rw [hkind] at hkind'
  have hkind'' : (entry.resolve base).kind = .module := hkind
  rcases hnames with ⟨c, c', hname, hname', hstart⟩ | ⟨failure, hnone, hnone'⟩
  · exact agree_of_counterparts hdirectory hbase hkind'' hkind' hplain hname hname' hstart hends
      hends'
  · -- without a name neither of them gives an answer
    have hfails : ¬ ∃ answer, (compileStill reporting nesting w [relative] options directory).1
        = .ok answer := by
      rintro ⟨answer, h⟩
      obtain ⟨name, hasked, -⟩ := exists_modules hkind' h
      have hboth := hnone.symm.trans hasked
      cases hboth
    have hfails' : ¬ ∃ answer, (compileStill reporting nesting' w [entry.resolve base] options
        base).1 = .ok answer := by
      rintro ⟨answer, h⟩
      obtain ⟨name, hasked, -⟩ := exists_modules hkind'' h
      have hboth := hnone'.symm.trans hasked
      cases hboth
    exact ⟨iff_of_false hfails hfails', fun hok => absurd hok hfails⟩

/-- The compilation of `main.js` of a project with import cycles, seen from one of its directories. -/
def compileFromLib : Except Failure (Option Tree) × Run (List (Value × String)) :=
  compileStill false 8 cyclicProject [⟨"../main.js", .module⟩] {} ⟨.root, ["p", "lib"]⟩

/-- The compilation of this file under its absolute name. -/
def compileFromRoot : Except Failure (Option Tree) × Run (List (Value × String)) :=
  compileStill false 8 cyclicProject [⟨"/p/main.js", .module⟩] {} ⟨.root, ["p"]⟩

theorem agree_cyclicProject :
    cyclicProject.HasDirectory ⟨.root, ["p", "lib"]⟩ ∧ (⟨.root, ["p"]⟩ : Path).isAbsolute = true ∧
    (⟨.root, ["p"]⟩ : Path).WellFormed ∧ ({} : Options).referrerName.truthy = false ∧
    (Path.resolve "main.js" ⟨.root, ["p"]⟩).anchor = .root ∧
    (∀ s ∈ (Path.resolve "main.js" ⟨.root, ["p"]⟩).segments, '\\' ∉ s.toList) ∧
    ¬ (Path.resolve "main.js" ⟨.root, ["p"]⟩).segments <+: ["p", "lib"] ∧
    Entry.resolveAll cyclicProject ⟨.root, ["p"]⟩ (some ⟨.root, ["p", "lib"]⟩)
      [⟨"main.js", .module⟩] = .ok [⟨"../main.js", .module⟩] ∧
    Entry.resolveAll cyclicProject ⟨.root, ["p"]⟩ none [⟨"main.js", .module⟩]
      = .ok [⟨"/p/main.js", .module⟩] ∧
    ArePlain cyclicProject ⟨.root, ["p", "lib"]⟩ compileFromLib.2.session.loaded ∧
    compileFromLib.1.toOption.isSome = true ∧
    Agree cyclicProject {} ⟨.root, ["p", "lib"]⟩ ⟨.root, ["p"]⟩ compileFromLib compileFromRoot := by
  have hdirectory : cyclicProject.HasDirectory ⟨.root, ["p", "lib"]⟩ :=
    ⟨rfl, by decide, by decide +kernel, by decide +kernel⟩
  have hwell : (⟨.root, ["p"]⟩ : Path).WellFormed := by decide
  have hbackslash : ∀ s ∈ (Path.resolve "main.js" ⟨.root, ["p"]⟩).segments, '\\' ∉ s.toList := by
    decide +kernel
  have houtside : ¬ (Path.resolve "main.js" ⟨.root, ["p"]⟩).segments <+: ["p", "lib"] := by
    decide +kernel
  have hentries : Entry.resolveAll cyclicProject ⟨.root, ["p"]⟩ (some ⟨.root, ["p", "lib"]⟩)
      [⟨"main.js", .module⟩] = .ok [⟨"../main.js", .module⟩] := eq_ok_of_toOption (by decide +kernel)
  have hentries' : Entry.resolveAll cyclicProject ⟨.root, ["p"]⟩ none [⟨"main.js", .module⟩]
      = .ok [⟨"/p/main.js", .module⟩] := eq_ok_of_toOption (by decide +kernel)
  have hplain : ArePlain cyclicProject ⟨.root, ["p", "lib"]⟩ compileFromLib.2.session.loaded := by
    decide +kernel
  have hkind : (⟨"main.js", .module⟩ : Entry).kind = .module := rfl
  have hanswer : compileFromLib.1.toOption.isSome = true := by decide +kernel
  have hanswer' : compileFromRoot.1.toOption.isSome = true := by decide +kernel
  exact ⟨hdirectory, rfl, hwell, rfl, rfl, hbackslash, houtside, hentries, hentries', hplain,
    hanswer, agree_of_resolveAll hdirectory rfl hwell hkind rfl rfl hbackslash houtside hentries
      hentries' hplain (ne_error_of_toOption hanswer _) (ne_error_of_toOption hanswer' _)⟩

/-! ### Paths that get too long -/

/-- A name that is not too long on its own. -/
def longName : String := String.ofList (List.replicate 253 'd')

/-- A directory whose path has as many bytes as a path may have, but for a few. -/
def deepDirectory : Path := ⟨.root, List.replicate 16 longName⟩

/-- A project with this directory and a file next to the first of the directories on the way. -/
def deepProject : Workspace where
  files := ⟨(["x.js"], .file "".toUTF8) ::
    (List.range 16).map fun n => (List.replicate (n + 1) longName, .directory)⟩
  cwd := some []
  start := ⟨.root, []⟩

/-- The name of this file, seen from the directory. -/
def nameFromDeep : String := "../../../../../../../../../../../../../../../../x.js"

lemma utf8ByteSize_longName : longName.utf8ByteSize = 253 := by decide +kernel

lemma longName_ne {s : String} (h : s.utf8ByteSize < 253) : longName ≠ s := by
  rintro rfl
  rw [utf8ByteSize_longName] at h
  exact absurd h (Nat.lt_irrefl _)

lemma null_not_mem_longName : '\x00' ∉ longName.toList := by
  have htext : longName.toList = List.replicate 253 'd' := String.toList_ofList
  rw [htext]
  exact fun h => absurd (List.eq_of_mem_replicate h) (by decide)

lemma content_of_deepProject {loc : Location} {content : ByteArray}
    (h : deepProject.files.node? loc = some (.file content)) : content = "".toUTF8 := by
  unfold FileTree.node? at h
  split at h
  · cases h
  · obtain ⟨entry, hfind, hnode⟩ := Option.map_eq_some_iff.mp h
    rcases List.mem_cons.mp (List.mem_of_find?_eq_some hfind) with rfl | hmem
    · cases hnode
      rfl
    · obtain ⟨n, -, rfl⟩ := List.mem_map.mp hmem
      cases hnode

lemma node?_deepProject {n : Nat} (hn : n ≤ 16) :
    deepProject.files.node? (List.replicate n longName) = some .directory := by
  cases n with
  | zero => rfl
  | succ n =>
    have hfirst : (["x.js"] == List.replicate (n + 1) longName) = false := by
      rw [beq_eq_false_iff_ne, List.replicate_succ, Ne, List.cons.injEq, not_and_or]
      exact Or.inl (longName_ne (by decide)).symm
    obtain ⟨m, hm⟩ : ∃ m, (List.range 16).find?
        (fun m => List.replicate (m + 1) longName == List.replicate (n + 1) longName) = some m := by
      rw [← Option.isSome_iff_exists, List.find?_isSome]
      exact ⟨n, List.mem_range.mpr hn, by simp⟩
    have hfound : deepProject.files.nodes.find? (fun e => e.1 == List.replicate (n + 1) longName)
        = some (List.replicate (m + 1) longName, .directory) := by
      simp only [deepProject, List.find?_cons, hfirst, List.find?_map]
      exact congrArg (Option.map _) hm
    rw [FileTree.node?, if_neg (by simp), hfound]
    rfl

lemma hasDirectory_deepProject : deepProject.HasDirectory deepDirectory := by
  refine ⟨rfl, ?_, ?_, ?_⟩
  · intro hmem
    exact longName_ne (by decide) (List.eq_of_mem_replicate hmem).symm
  · rw [Workspace.holdsNull, List.any_eq_false]
    intro s hs hnull
    obtain rfl : s = longName := List.eq_of_mem_replicate hs
    exact null_not_mem_longName (List.contains_iff_mem.mp hnull)
  · have hwalk : ∀ n ≤ 16, deepProject.files.walk [] (List.replicate n longName)
        = .ok (List.replicate n longName) := by
      intro n
      induction n with
      | zero => exact fun _ => rfl
      | succ n ih =>
        intro hn
        have hstep : deepProject.files.step (List.replicate n longName) longName
            = .ok (List.replicate (n + 1) longName) := by
          unfold FileTree.step
          rw [node?_deepProject (by omega)]
          dsimp only
          rw [if_neg (longName_ne (by decide)), utf8ByteSize_longName, if_neg (by decide),
            List.replicate_succ']
        rw [List.replicate_succ', FileTree.walk_append, ih (by omega), ← List.replicate_succ']
        simp [Except.bind, FileTree.walk, hstep]
    have hshort : Workspace.isTooLong deepDirectory = false := by
      rw [Workspace.isTooLong, deepDirectory, utf8ByteSize_text_root (by simp), sizeOf_replicate,
        utf8ByteSize_longName]
      rfl
    have hlook : deepProject.files.look [] deepDirectory.segments
        = .ok (deepDirectory.segments, .directory) := by
      rw [FileTree.look, deepDirectory, hwalk 16 (Nat.le_refl 16)]
      dsimp only [bind, Except.bind]
      rw [node?_deepProject (Nat.le_refl 16)]
    have habsolute : deepDirectory.isAbsolute = true := rfl
    rw [Workspace.isDirectory, Workspace.look, hshort, Workspace.origin?, habsolute]
    simp [hlook, Except.map]

lemma isTooLong_nameFromDeep : Workspace.isTooLong (locate deepDirectory nameFromDeep) = true := by
  have hpath : Path.ofString nameFromDeep = ⟨.relative, List.replicate 16 ".." ++ ["x.js"]⟩ := by
    decide +kernel
  rw [locate, hpath, append_relative _ rfl, Workspace.isTooLong, deepDirectory,
    utf8ByteSize_text_root (by simp)]
  simp only [sizeOf_append, sizeOf_replicate, utf8ByteSize_longName]
  decide

/-- Without a limit to paths the relative names of a module may be too long. -/
theorem not_always_agree :
    ¬ ∀ (w : Workspace) (entry : Entry) (options : Options) (directory base : Path)
      (entries entries' : List Entry) (nesting nesting' : Nat), w.HasDirectory directory →
      base.isAbsolute = true → base.WellFormed → entry.kind = .module →
      options.referrerName.truthy = false → (Path.resolve entry.name base).anchor = .root →
      (∀ s ∈ (Path.resolve entry.name base).segments, '\\' ∉ s.toList) →
      ¬ (Path.resolve entry.name base).segments <+: directory.segments →
      Entry.resolveAll w base (some directory) [entry] = .ok entries →
      Entry.resolveAll w base none [entry] = .ok entries' →
      (∀ name ∈ (compileStill false nesting w entries options directory).2.session.loaded,
        ∀ source, sourceAt? w directory name = some source → HasPlainSpecifiers source) →
      (∀ name ∈ (compileStill false nesting' w entries' options base).2.session.loaded,
        ∀ source, sourceAt? w base name = some source → HasPlainSpecifiers source) →
      (compileStill false nesting w entries options directory).1 ≠ .error .nestedTooDeep →
      (compileStill false nesting' w entries' options base).1 ≠ .error .nestedTooDeep →
      Agree w options directory base (compileStill false nesting w entries options directory)
        (compileStill false nesting' w entries' options base) := by
  intro hall
  have hdirectory := hasDirectory_deepProject
  have hplain : ∀ base : Path, base.isAbsolute = true → ∀ name source,
      sourceAt? deepProject base name = some source → HasPlainSpecifiers source := by
    intro base hbase name source hsource
    obtain ⟨content, hnode, htext⟩ := exists_file_of_sourceAt? hbase hsource
    have hempty : textOf? "".toUTF8 = some "" := by decide +kernel
    rw [content_of_deepProject hnode, hempty, Option.some.injEq] at htext
    subst htext
    decide +kernel
  have htarget : Path.resolve "x.js" ⟨.root, []⟩ = ⟨.root, ["x.js"]⟩ := by decide +kernel
  have houtside : ¬ ["x.js"] <+: deepDirectory.segments := by
    rw [deepDirectory, List.replicate_succ, List.cons_prefix_cons]
    exact fun h => longName_ne (by decide) h.1.symm
  have hentries : Entry.resolveAll deepProject ⟨.root, []⟩ (some deepDirectory) [⟨"x.js", .module⟩]
      = .ok [⟨nameFromDeep, .module⟩] := by
    have hway : wayTo deepDirectory.segments ["x.js"] = List.replicate 16 ".." ++ ["x.js"] := by
      have hne : longName ≠ "x.js" := longName_ne (by decide)
      rw [deepDirectory, List.replicate_succ, wayTo, if_neg hne, List.map_cons,
        List.map_const', List.length_replicate]
      rfl
    rw [Entry.resolveAll, List.mapM_cons, Entry.resolveIn_eq _ _ rfl hdirectory.isAbsolute
      hdirectory.normal, htarget, hway]
    exact eq_ok_of_toOption (by decide +kernel)
  have hnone : sourceAt? deepProject deepDirectory nameFromDeep = none :=
    sourceAt?_of_isTooLong isTooLong_nameFromDeep
  have hname : nameOf {} ⟨nameFromDeep, .module⟩ = .ok nameFromDeep :=
    eq_ok_of_toOption (by decide +kernel)
  have hkind : (⟨nameFromDeep, .module⟩ : Entry).kind = .module := rfl
  obtain ⟨hfails, hends⟩ := compileStill_of_sourceAt? false 1 hkind hname hnone
  have hanswer : (compileStill false 2 deepProject [⟨"/x.js", .module⟩] {}
      ⟨.root, []⟩).1.toOption.isSome = true := by decide +kernel
  obtain ⟨hiff, -⟩ := hall deepProject ⟨"x.js", .module⟩ {} deepDirectory ⟨.root, []⟩
    [⟨nameFromDeep, .module⟩] [⟨"/x.js", .module⟩] 2 2 hdirectory rfl (by simp [WellFormed]) rfl rfl
    (by rw [htarget]) (by rw [htarget]; decide) (by rw [htarget]; exact houtside) hentries
    (eq_ok_of_toOption (by decide +kernel)) (fun name _ => hplain _ hdirectory.isAbsolute name)
    (fun name _ => hplain _ rfl name) hends (ne_error_of_toOption hanswer _)
  obtain ⟨answer, hok⟩ := Option.isSome_iff_exists.mp hanswer
  exact hfails (hiff.mpr ⟨answer, eq_ok_of_toOption hok⟩)

end Bundler.Compile
