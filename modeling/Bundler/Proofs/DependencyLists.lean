import Bundler.Proofs.EntryCounterparts
import Bundler.Proofs.FilesOfNames
import Bundler.Proofs.KeptFiles
import Bundler.Proofs.Reports
import Bundler.Proofs.SharedFiles

/-!
# Lists of dependencies

The files that entries are made of can be listed instead of merging them. The list is made below
the base directory, under absolute names, and the merge below the directory of its output. Both
read the same files if entries and specifiers stand for the same places below both directories.
-/

namespace Bundler

open Load.Source

/-! ### Files while notes are taken -/

/-- The text of the file at a location. -/
def Workspace.textAt? (w : Workspace) (loc : Location) : Option String :=
  (w.files.content? loc).bind textOf?

namespace Compile

open Load WorkM ModuleName Bundler.Units

variable {σ : Type} {w w' : Workspace} {base directory : Path} {name source : String}
  {changing : List Location}

/-- A source that is not in a changing file is the text that was there before. -/
lemma textAt?_of_sourceAt? (hbase : base.isAbsolute = true)
    (hkeeps : w.files.Keeps changing w'.files) (hloc : (locate base name).place ∉ changing)
    (h : sourceAt? w' base name = some source) :
    w.textAt? (locate base name).place = some source := by
  obtain ⟨content, hnode, htext⟩ := exists_file_of_sourceAt? hbase h
  have hcontent : w'.files.content? (locate base name).place = some content := by
    rw [FileTree.content?, hnode]
  rw [Workspace.textAt?, ← hkeeps.content _ hloc, hcontent]
  exact htext

/-- On the way to the directory of its output a merged request changes no file but those of the
log. -/
lemma arrived_keeps (request : Request) (work : Work (Record σ)) :
    Work.Keeps [] work (request.arrived work) := by
  unfold Request.arrived begin
  rw [carryOut_bind, carryOut_modify]
  dsimp only
  cases hcwd : work.workspace.cwd with
  | some loc =>
    have harrive : ∀ begun : Work (Record σ), begun.workspace.cwd = some loc → Work.Keeps [] begun
        (carryOut (arrive (request.directory work.workspace)) begun).2 :=
      fun _ h => (arrive_keeps _ h).1
    obtain ⟨hlog, hfiles⟩ := harrive { work with memory := { work.memory with
      requests := work.memory.requests ++ [request.mergeOptions] } } hcwd
    exact ⟨hlog, hfiles⟩
  | none =>
    -- there is no way back, so the request does not go anywhere
    unfold arrive departure
    simp only [carryOut_bind, carryOut_get, Workspace.cwdPath, hcwd, carryOut_throw]
    exact ⟨rfl, .refl _ _⟩

/-- What a merged request finds when it loads are the files that were there before, but for those of
the log. -/
lemma view_keeps (request : Request) (work : Work (Record σ)) (ns : List Note) :
    work.workspace.files.Keeps work.journal.log.locations (request.view work ns).files := by
  obtain ⟨hlog, hfiles⟩ := arrived_keeps request work
  obtain ⟨-, hnoted⟩ := (request.arrived work).journal.noteAll_keeps ns
    (request.arrived work).workspace
  rw [hlog] at hnoted
  exact hfiles.trans hnoted.files

/-! ### Names of entries -/

/-- Names may start anywhere. -/
def Anywhere (_ _ : Anchor) : Prop := True

/-- The place of an entry is neither a directory nor above it, and the name that the entry has there
is not seen from a referrer. -/
structure IsOutside (base directory : Path) (options : Options) (entry : Entry) : Prop where
  plain : ∀ s ∈ (Path.resolve entry.name base).segments, '\\' ∉ s.toList
  outside : ¬ (Path.resolve entry.name base).segments <+: directory.segments
  referrer : options.referrerName.truthy = false ∨
    directory.segments <+: (Path.resolve entry.name base).segments

instance (base directory : Path) (options : Options) (entry : Entry) :
    Decidable (IsOutside base directory options entry) :=
  decidable_of_iff
    ((∀ s ∈ (Path.resolve entry.name base).segments, '\\' ∉ s.toList) ∧
      ¬ (Path.resolve entry.name base).segments <+: directory.segments ∧
      (options.referrerName.truthy = false ∨
        directory.segments <+: (Path.resolve entry.name base).segments))
    ⟨fun ⟨hplain, houtside, hreferrer⟩ => ⟨hplain, houtside, hreferrer⟩,
      fun ⟨hplain, houtside, hreferrer⟩ => ⟨hplain, houtside, hreferrer⟩⟩

variable {options options' : Options} {entries near : List Entry} {asked asked' : List String}

/-- The names of entries below two directories are counterparts. -/
lemma counterparts_of_entries (hbase : base.isAbsolute = true) (hwell : base.WellFormed)
    (hdirectory : directory.isAbsolute = true) (hnormal : ".." ∉ directory.segments)
    (hextension : extension options = extension options')
    (houtside : ∀ entry ∈ entries, IsOutside base directory options entry)
    (hnear : Entry.resolveAll w base (some directory) entries = .ok near)
    (hasked : near.mapM (nameOf options) = .ok asked)
    (hasked' : (entries.map (Entry.resolve base)).mapM (nameOf options') = .ok asked') :
    List.Forall₂ (Counterparts Anywhere directory base) asked asked' := by
  induction entries generalizing near asked asked' with
  | nil =>
    cases hnear
    cases hasked
    cases hasked'
    exact .nil
  | cons entry entries ih =>
    obtain ⟨entry', near, hentry, hrest, rfl⟩ := mapM_cons_eq_ok_iff.mp hnear
    obtain ⟨c, asked, hc, hnames, rfl⟩ := mapM_cons_eq_ok_iff.mp hasked
    obtain ⟨c', asked', hc', hnames', rfl⟩ := mapM_cons_eq_ok_iff.mp hasked'
    obtain ⟨hplain, hout, hreferrer⟩ := houtside entry List.mem_cons_self
    have hanchor : Anywhere .relative (Path.resolve entry.name base).anchor := trivial
    obtain ⟨e, he, -, ⟨d, d', hd, hd', hcounterparts⟩ | ⟨failure, hnone, -⟩⟩ :=
      Entry.counterparts_of_entry (w := w) hbase hwell hdirectory hnormal hplain hout hreferrer
        hanchor hextension
    · obtain rfl : entry' = e := Except.ok.inj (hentry.symm.trans he)
      obtain rfl : c = d := Except.ok.inj (hc.symm.trans hd)
      obtain rfl : c' = d' := Except.ok.inj (hc'.symm.trans hd')
      refine .cons hcounterparts (ih ?_ hrest hnames hnames')
      exact fun e he => houtside e (List.mem_cons_of_mem _ he)
    · obtain rfl : entry' = e := Except.ok.inj (hentry.symm.trans he)
      have hboth := hc.symm.trans hnone
      cases hboth

/-! ### Both ways to the files -/

/-- The directory that the entries of a request are resolved against. -/
def Request.start (request : Request) (w : Workspace) : Path := w.base request.base

/-- The compilation that lists the files of a request. Its entries have absolute names. -/
def Request.list (request : Request) (options : Options) (nesting : Nat)
    (work : Work (Record σ)) : Except Failure (Option Tree) × Run (List (Value × String)) :=
  compileEntries (Source.loader true nesting) (work.journal.view work.workspace)
    (request.entries.map (Entry.resolve (request.start work.workspace))) options
    (request.start work.workspace) []

/-- The file at a location is listed: the path of a report, read from the base directory, leads to
it. -/
def IsListed (base : Path) (run : Run (List (Value × String))) (loc : Location) : Prop :=
  ∃ report ∈ run.memory, (Path.resolve report.2 base).segments = loc

/-- The units of a compilation that lists files. -/
def Run.units {σ : Type} (run : Run σ) : List CompiledUnit := Element.units run.session.elements

/-- The specifiers of a text stand for the same files below both directories. -/
def TellsPlaces (base directory : Path) (source : String) : Prop :=
  ∀ specifier ∈ Specifier.ofSource source,
    (IsAnchored specifier ∨ directory.place = base.place) ∧ IsOrdinary specifier

instance (base directory : Path) (source : String) : Decidable (TellsPlaces base directory source) :=
  inferInstanceAs (Decidable (∀ specifier ∈ Specifier.ofSource source, _ ∧ _))

variable {view view' : View} {notes notes' : List Note} {u v : CompiledUnit}

/-- Units of one kind with counterparts as names depend on counterparts. -/
lemma forall₂_dependencies (hbase : base.isAbsolute = true) (hdirectory : directory.isAbsolute = true)
    (hextension : extension options = extension options')
    (hview : ∀ ns, w.files.Keeps changing (view ns).files)
    (hview' : ∀ ns, w.files.Keeps changing (view' ns).files)
    (hloc : (locate directory u.name).place ∉ changing)
    (htells : u.kind = "module" → ∀ source,
      w.textAt? (locate directory u.name).place = some source → TellsPlaces base directory source)
    (hkind : u.kind = v.kind) (hu : MadeDuring view notes (IsAnyUnit directory options) u)
    (hv : MadeDuring view' notes' (IsAnyUnit base options') v)
    (h : Counterparts Anywhere directory base u.name v.name) :
    List.Forall₂ (Counterparts Anywhere directory base) u.dependencies v.dependencies := by
  have hplace := place_of_counterparts hdirectory hbase h
  obtain ⟨ns, -, kind, hu⟩ := hu
  obtain ⟨ns', -, kind', hv⟩ := hv
  cases kind with
  | module =>
    cases kind' with
    | module =>
      obtain ⟨source, hsource, hnames, -⟩ := id hu
      obtain ⟨source', hsource', hnames', -⟩ := hv
      have htext := textAt?_of_sourceAt? hdirectory (hview ns) hloc hsource
      have htext' := textAt?_of_sourceAt? hbase (hview' ns') (hplace ▸ hloc) hsource'
      rw [hplace, htext', Option.some.injEq] at htext
      subst htext
      have hspecifiers : ∀ specifier ∈ Specifier.ofSource source',
          (IsAnchored specifier ∨ directory.place = base.place ∧ Anywhere .relative .relative) ∧
            IsOrdinary specifier := by
        intro specifier hmem
        obtain ⟨hplaces, hordinary⟩ := htells (IsModule.kind hu) source' (hplace ▸ htext') specifier hmem
        exact ⟨hplaces.imp_right fun hsame => ⟨hsame, trivial⟩, hordinary⟩
      rcases dependencies_of_counterparts hdirectory hbase (fun _ _ => trivial) hspecifiers hextension
          h with ⟨cs, cs', hcs, hcs', hall⟩ | ⟨failure, hnone, -⟩
      · rw [hnames] at hcs
        rw [hnames'] at hcs'
        cases hcs
        cases hcs'
        exact hall
      · rw [hnames] at hnone
        cases hnone
    | script => 
      rw [IsModule.kind hu, IsScript.kind hv] at hkind
      simp at hkind
  | script =>
    cases kind' with
    | module =>
      rw [IsScript.kind hu, IsModule.kind hv] at hkind
      simp at hkind
    | script =>
      obtain ⟨source, -, hunit⟩ := hu
      obtain ⟨source', -, hunit'⟩ := hv
      rw [hunit, hunit']
      exact .nil

variable {request : Request} {work : Work (Record (List (Value × String)))} {nesting nesting' : Nat}
  {tree : Tree} {answer : Option Tree} {units units' : List CompiledUnit}
  {loaded loaded' : List String} {loc : Location}

/-- Entries and specifiers stand for the same files below the base directory and below the directory
of the output, and each of these files is read as a module or as a script both ways; none of them is
a file of the log. -/
structure Request.StandsFor (request : Request) (options : Options) (work : Work σ)
    (units units' : List CompiledUnit) : Prop where
  extension : ∀ e, extension options = .ok e → '\\' ∉ e.toList
  entries : ∀ entry ∈ request.entries, IsOutside (request.start work.workspace)
    (request.directory work.workspace) request.mergeOptions entry
  specifiers : ∀ u ∈ units, u.kind = "module" → ∀ source,
    work.workspace.textAt? (locate (request.directory work.workspace) u.name).place = some source →
      TellsPlaces (request.start work.workspace) (request.directory work.workspace) source
  kinds : ∀ u ∈ units, ∀ v ∈ units', (locate (request.directory work.workspace) u.name).place
    = (locate (request.start work.workspace) v.name).place → u.kind = v.kind
  log : ∀ u ∈ units, (locate (request.directory work.workspace) u.name).place
    ∉ work.journal.log.locations

/-- What is listed are the files of the names that are loaded. -/
lemma isListed_iff (htarget : options.dependencyTarget.truthy = true)
    (hbackslash : ∀ e, extension options = .ok e → '\\' ∉ e.toList)
    (h : (request.list options nesting work).1 = .ok answer) (loc : Location) :
    IsListed (request.start work.workspace) (request.list options nesting work).2 loc ↔
      ∃ v ∈ (request.list options nesting work).2.units,
        (locate (request.start work.workspace) v.name).place = loc := by
  obtain ⟨names, hnames, hunits⟩ := session_adds h
  have hreports := compileEntries_isReported htarget h
  have hshown : ∀ v ∈ (request.list options nesting work).2.units,
      (Path.resolve (reportOf options (request.start work.workspace) v.name).2
        (request.start work.workspace)).segments
        = (locate (request.start work.workspace) v.name).place := by
    intro v hv
    obtain ⟨_, _, hcanonical⟩ := exists_canonical hnames hunits hv
    have hplain := backslash_not_mem_canonical hbackslash hcanonical
    exact congrArg Path.segments (resolve_shownPath _ hplain)
  constructor
  · rintro ⟨report, hmem, hloc⟩
    rw [Request.list, hreports] at hmem
    obtain ⟨name, hname, rfl⟩ := List.mem_map.mp hmem
    obtain ⟨v, hv, rfl⟩ := hunits.exists_unit (List.mem_reverse.mp hname)
    exact ⟨v, hv, (hshown v hv).symm.trans hloc⟩
  · rintro ⟨v, hv, hloc⟩
    refine ⟨reportOf options (request.start work.workspace) v.name, ?_, (hshown v hv).trans hloc⟩
    rw [Request.list, hreports]
    apply List.mem_map_of_mem
    rw [List.mem_reverse, hunits.mem_new_iff]
    exact Or.inr (mem_names.mpr ⟨v, hv, rfl⟩)

/-- The files that a merged tree is made from are those that the names of its units lead to. -/
lemma exists_madeFrom_iff (hdirectory : (request.directory work.workspace).isAbsolute = true)
    (hentries : request.entriesIn work.workspace = .ok entries)
    (hmerge : (carryOut (merge (Source.loader false nesting) request) work).1 = .ok (some tree))
    (loc : Location) :
    (∃ unit ∈ Element.units tree, MadeDuring (request.view work)
        (request.compile (Source.loader false nesting) entries work).2.notes
        (IsMadeFrom (request.directory work.workspace) request.mergeOptions loc) unit) ↔
      ∃ unit ∈ Element.units tree,
        (locate (request.directory work.workspace) unit.name).place = loc := by
  obtain ⟨entries', hentries', htree⟩ := merge_ok hmerge
  obtain rfl : entries = entries' := Except.ok.inj (hentries.symm.trans hentries')
  obtain ⟨_, _, -, hunits⟩ := compileEntries_adds htree
  constructor
  · rintro ⟨unit, hunit, hmade⟩
    exact ⟨unit, hunit, (location_of_madeFrom hdirectory hmade).1⟩
  · rintro ⟨unit, hunit, rfl⟩
    exact ⟨unit, hunit, madeFrom_location hdirectory (hunits.made_of_mem unit hunit)⟩

/-- The files that are listed for the entries of a request are those that the merged tree is made
from, if entries and specifiers stand for the same files both ways. -/
theorem isListed_iff_isMadeFrom (hbase : (request.start work.workspace).isAbsolute = true)
    (hwell : (request.start work.workspace).WellFormed)
    (hentries : request.entriesIn work.workspace = .ok entries)
    (hmerge : (carryOut (merge (Source.loader false nesting) request) work).1 = .ok (some tree))
    (hlist : (request.list options nesting' work).1 = .ok answer)
    (htarget : options.dependencyTarget.truthy = true)
    (hextras : options.extras = request.mergeOptions.extras)
    (hstands : request.StandsFor options work (Element.units tree)
      (request.list options nesting' work).2.units) (loc : Location) :
    IsListed (request.start work.workspace) (request.list options nesting' work).2 loc ↔
      ∃ unit ∈ Element.units tree, MadeDuring (request.view work)
        (request.compile (Source.loader false nesting) entries work).2.notes
        (IsMadeFrom (request.directory work.workspace) request.mergeOptions loc) unit := by
  obtain ⟨entries', hentries', htree⟩ := merge_ok hmerge
  obtain rfl : entries = entries' := Except.ok.inj (hentries.symm.trans hentries')
  obtain ⟨asked, loaded, hasked, hunits⟩ := compileEntries_adds htree
  obtain ⟨asked', hasked', hunits'⟩ := session_adds hlist
  have hdirectory : (request.directory work.workspace).isAbsolute = true :=
    Path.isAbsolute_append _ hbase
  have hextension : extension request.mergeOptions = extension options := by
    rw [extension, extension, Options.get?, Options.get?, hextras]
  have hstart := counterparts_of_entries hbase hwell hdirectory
    (not_mem_segments_directory hdirectory) hextension hstands.entries hentries hasked hasked'
  have hstep : ∀ u ∈ Element.units tree, ∀ v ∈ (request.list options nesting' work).2.units,
      Counterparts Anywhere (request.directory work.workspace) (request.start work.workspace) u.name
        v.name →
      List.Forall₂ (Counterparts Anywhere (request.directory work.workspace)
        (request.start work.workspace)) u.dependencies v.dependencies := by
    intro u hu v hv h
    exact forall₂_dependencies hbase hdirectory hextension (view_keeps request work)
      (fun ns => (work.journal.noteAll_keeps ns work.workspace).2.files) (hstands.log u hu)
      (hstands.specifiers u hu) (hstands.kinds u hu v hv (place_of_counterparts hdirectory hbase h))
      (hunits.made_of_mem u hu) (hunits'.made_of_mem v hv) h
  rw [isListed_iff htarget hstands.extension hlist, exists_madeFrom_iff hdirectory hentries hmerge]
  constructor
  · rintro ⟨v, hv, rfl⟩
    obtain ⟨u, hu, h⟩ := hunits'.exists_related
      (R := fun n' n => Counterparts Anywhere (request.directory work.workspace)
        (request.start work.workspace) n n') hunits hstart.flip
      (fun v hv u hu h => (hstep u hu v hv h).flip) v hv
    exact ⟨u, hu, place_of_counterparts hdirectory hbase h⟩
  · rintro ⟨u, hu, rfl⟩
    obtain ⟨v, hv, h⟩ := hunits.exists_related hunits' hstart hstep u hu
    exact ⟨v, hv, (place_of_counterparts hdirectory hbase h).symm⟩

/-- The options that the files of a project are listed with. -/
def listOptions : Options := { dependencyTarget := .text "out/app.js" }

theorem isListed_nestedProject :
    ((nestedRequest.start nestedProject.workspace).isAbsolute = true) ∧
    (nestedRequest.start nestedProject.workspace).WellFormed ∧
    (carryOut (merge (Source.loader false 8) nestedRequest) nestedProject).1 = .ok (some nestedTree) ∧
    (nestedRequest.list listOptions 8 nestedProject).1 = .ok none ∧
    nestedRequest.StandsFor listOptions nestedProject (Element.units nestedTree)
      (nestedRequest.list listOptions 8 nestedProject).2.units ∧
    ∃ entries, nestedRequest.entriesIn nestedProject.workspace = .ok entries ∧
      ∀ loc, IsListed ⟨.root, ["p"]⟩ (nestedRequest.list listOptions 8 nestedProject).2 loc ↔
        ∃ unit ∈ Element.units nestedTree, MadeDuring (nestedRequest.view nestedProject)
          (nestedRequest.compile (Source.loader false 8) entries nestedProject).2.notes
          (IsMadeFrom ⟨.root, ["p", "out"]⟩ nestedRequest.mergeOptions loc) unit := by
  have hwell : (nestedRequest.start nestedProject.workspace).WellFormed := by decide +kernel
  have hlist : (nestedRequest.list listOptions 8 nestedProject).1 = .ok none :=
    eq_ok_of_toOption (by decide +kernel)
  have hstands : nestedRequest.StandsFor listOptions nestedProject (Element.units nestedTree)
      (nestedRequest.list listOptions 8 nestedProject).2.units := by
    refine ⟨?_, by decide +kernel, ?_, by decide +kernel, by decide +kernel⟩
    · intro e he
      cases he
      decide
    · have hall : ∀ u ∈ Element.units nestedTree, ∀ source ∈ nestedProject.workspace.textAt?
          (locate ⟨.root, ["p", "out"]⟩ u.name).place,
          TellsPlaces ⟨.root, ["p"]⟩ ⟨.root, ["p", "out"]⟩ source := by decide +kernel
      exact fun u hu _ => hall u hu
  obtain ⟨entries, hentries, -⟩ := merge_ok merge_nested
  exact ⟨rfl, hwell, merge_nested, hlist, hstands, entries, hentries,
    isListed_iff_isMadeFrom rfl hwell hentries merge_nested hlist rfl rfl hstands⟩

/-! ### Files that are listed otherwise than merged -/

/-- A request whose files are listed and merged, and the location of a file that is found in one way
only. -/
structure Divergence where
  request : Request
  work : Work (Record (List (Value × String)))
  loc : Location

/-- The files are listed with the settings that they are merged with. -/
def Divergence.settings (d : Divergence) : Options :=
  { d.request.mergeOptions with dependencyTarget := .text d.request.output }

/-- The files are listed and merged with the same settings, and both go well, but for one file it is
not the same whether it is listed and whether the tree is made from it. -/
structure Divergence.IsShown (d : Divergence) : Prop where
  base : (d.request.start d.work.workspace).isAbsolute = true
  target : d.settings.dependencyTarget.truthy = true
  extras : d.settings.extras = d.request.mergeOptions.extras
  referrer : d.settings.referrerName = d.request.mergeOptions.referrerName
  listed : ∃ answer, (d.request.list d.settings 8 d.work).1 = .ok answer
  merged : ∃ tree entries,
    (carryOut (merge (Source.loader false 8) d.request) d.work).1 = .ok (some tree) ∧
    d.request.entriesIn d.work.workspace = .ok entries ∧
    ¬ (IsListed (d.request.start d.work.workspace) (d.request.list d.settings 8 d.work).2 d.loc ↔
      ∃ unit ∈ Element.units tree, MadeDuring (d.request.view d.work)
        (d.request.compile (Source.loader false 8) entries d.work).2.notes
        (IsMadeFrom (d.request.directory d.work.workspace) d.request.mergeOptions d.loc) unit)

/-- The places of the units of the merged tree, if there is one. -/
def Divergence.places? (d : Divergence) : Option (List Location) := do
  let tree ← (← (carryOut (merge (Source.loader false 8) d.request) d.work).1.toOption)
  pure ((Element.units tree).map fun unit =>
    (locate (d.request.directory d.work.workspace) unit.name).place)

/-- Both ways go well, and the file is found on one of them only. -/
def Divergence.shows (d : Divergence) : Bool :=
  (d.request.list d.settings 8 d.work).1.toOption.isSome && d.places?.any fun places =>
    decide (¬ (d.loc ∈ ((d.request.list d.settings 8 d.work).2.memory.map fun report =>
      (Path.resolve report.2 (d.request.start d.work.workspace)).segments) ↔ d.loc ∈ places))

lemma Divergence.isShown_of_shows (d : Divergence)
    (hbase : (d.request.start d.work.workspace).isAbsolute = true)
    (htarget : d.settings.dependencyTarget.truthy = true) (hshows : d.shows = true) :
    d.IsShown := by
  obtain ⟨hlisted, hplaces⟩ := Bool.and_eq_true_iff.mp hshows
  obtain ⟨answer, hanswer⟩ := Option.isSome_iff_exists.mp hlisted
  obtain ⟨places, hplaces, hdiffers⟩ := (Option.any_eq_true _ _).mp hplaces
  refine ⟨hbase, htarget, rfl, rfl, ⟨answer, eq_ok_of_toOption hanswer⟩, ?_⟩
  obtain ⟨tree, htree, rfl⟩ : ∃ tree,
      (carryOut (merge (Source.loader false 8) d.request) d.work).1.toOption = some (some tree) ∧
      (Element.units tree).map (fun unit =>
        (locate (d.request.directory d.work.workspace) unit.name).place) = places := by
    simpa [Divergence.places?, Option.bind_eq_some_iff] using hplaces
  have hmerge := eq_ok_of_toOption htree
  obtain ⟨entries, hentries, -⟩ := merge_ok hmerge
  refine ⟨tree, entries, hmerge, hentries, ?_⟩
  rw [exists_madeFrom_iff (Path.isAbsolute_append _ hbase) hentries hmerge]
  simpa [IsListed] using hdiffers

/-- A project with some directories and files, which begins in one of the directories. -/
def projectOf (start : Location) (directories : List Location) (files : List (Location × String)) :
    Work (Record (List (Value × String))) where
  workspace :=
    { files := ⟨directories.map (fun loc => (loc, .directory)) ++
        files.map fun (loc, text) => (loc, .file text.toUTF8)⟩
      cwd := some []
      start := ⟨.root, start⟩ }
  memory := { memory := [] }

/-- The request to merge some entries into `out/app.js`. -/
def mergingRequest (entries : List Entry) (options : Options) : Request where
  output := "out/app.js"
  entries := entries
  options := some options
  base := none

/-- Requests for which it makes a difference, each for a reason of its own. -/
def divergences : List Divergence := [
  -- a bare specifier is seen from the base directory of its session
  { request := mergingRequest [⟨"main.js", .module⟩] {}
    work := projectOf ["p"] [["p"], ["p", "lib"], ["p", "out"], ["p", "out", "lib"]]
      [(["p", "main.js"], "import \"lib/x\";\n"), (["p", "lib", "x.js"], "var x;\n"),
        (["p", "out", "lib", "x.js"], "var y;\n")]
    loc := ["p", "lib", "x.js"] },
  -- a specifier without a last segment is a directory, whose name depends on the way there
  { request := mergingRequest [⟨"main.js", .module⟩] {}
    work := projectOf ["p", "sub"] [["p"], ["p", "sub"], ["p", "sub", "out"]]
      [(["p", "sub", "main.js"], "import \"./\";\n"), (["p", "sub.js"], "var x;\n"),
        (["p", "sub", "out", "...js"], "var y;\n")]
    loc := ["p", "sub.js"] },
  -- and so is an entry that is the directory of the output
  { request := mergingRequest [⟨"out", .module⟩] {}
    work := projectOf ["p"] [["p"], ["p", "out"]]
      [(["p", "out.js"], "var x;\n"), (["p", "out", ".js"], "var y;\n")]
    loc := ["p", "out.js"] },
  -- a backslash above both directories is taken for a slash in absolute names only
  { request := mergingRequest [⟨"main.js", .module⟩] {}
    work := projectOf ["a\\b"] [["a\\b"], ["a\\b", "out"], ["a"], ["a", "b"]]
      [(["a\\b", "main.js"], "var x;\n"), (["a", "b", "main.js"], "var y;\n")]
    loc := ["a", "b", "main.js"] },
  -- a name that climbs is seen from the referrer
  { request := mergingRequest [⟨"main.js", .module⟩] { referrerName := .text "r/x" }
    work := projectOf ["p"] [["p"], ["p", "out"]]
      [(["p", "main.js"], "var x;\n"), (["p", "out", "main.js"], "var y;\n")]
    loc := ["p", "main.js"] },
  -- a file with two names is a script under one and a module under the other
  { request := mergingRequest [⟨"out/file.js", .script⟩, ⟨"main.js", .module⟩] {}
    work := projectOf ["p"] [["p"], ["p", "out"]]
      [(["p", "main.js"], "import \"./out/file.js\";\n"),
        (["p", "out", "file.js"], "import \"./dep.js\";\n"), (["p", "out", "dep.js"], "var d;\n")]
    loc := ["p", "out", "dep.js"] },
  -- a backslash in a name is told as a slash
  { request := mergingRequest [⟨"main", .module⟩]
      { extras := [(.text "extension", .text "\\x.js")] }
    work := projectOf ["p"] [["p"], ["p", "out"]] [(["p", "main\\x.js"], "var x;\n")]
    loc := ["p", "main", "x.js"] }]

/-- What is listed need not be what is merged, for one reason or another. -/
theorem not_always_listed : divergences.Forall Divergence.IsShown := by
  have hall : ∀ d ∈ divergences, (d.request.start d.work.workspace).isAbsolute = true ∧
      d.settings.dependencyTarget.truthy = true ∧ d.shows = true := by
    decide +kernel
  rw [List.forall_iff_forall_mem]
  intro d hd
  obtain ⟨hbase, htarget, hshows⟩ := hall d hd
  exact d.isShown_of_shows hbase htarget hshows

end Compile

end Bundler
