import Bundler.Proofs.CanonicalNames
import Bundler.Proofs.EntryLoading
import Bundler.Proofs.Locations
import Bundler.Proofs.Merging

/-!
# Files that are read more than once

Names are loaded once in a session, but a file may have several names. The canonical names of a
merged request are seen from the directory of its output, and a name that leaves this directory by
`..` and comes back into it is not told apart from one that goes elsewhere. Such names, absolute
names and names that go up beyond the root are detours; names that go straight to their files lead
to different files.
-/

namespace Bundler.Compile

open Load Load.Source Bundler.Units WorkM

/-! ### Units and the locations of their files -/

/-- The unit is made from the file of its name, which is at a location. -/
def IsMadeFrom (base : Path) (options : Options) (loc : Location) (w : Workspace)
    (unit : CompiledUnit) : Prop :=
  IsAnyUnit base options w unit ∧ w.fileAt? (locate base unit.name) = some loc

variable {reporting : Bool} {nesting : Nat} {view : View} {entries : List Entry}
  {options : Options} {base : Path} {memory : List (Value × String)} {tree : Tree}
  {w : Workspace} {unit : CompiledUnit} {loc : Location} {notes : List Note}

/-- What a unit is made from is a file, at the location that its name leads to. -/
lemma IsAnyUnit.fileAt? (hbase : base.isAbsolute = true) (h : IsAnyUnit base options w unit) :
    w.fileAt? (locate base unit.name) = some (locate base unit.name).normalize.segments ∧
      (locate base unit.name).normalize.segments ≠ [] := by
  obtain ⟨kind, hkind⟩ := h
  obtain ⟨source, hsource⟩ : ∃ source, sourceAt? w base unit.name = some source := by
    cases kind with
    | module =>
      obtain ⟨source, hsource, -⟩ := hkind
      exact ⟨source, hsource⟩
    | script =>
      obtain ⟨source, hsource, -⟩ := hkind
      exact ⟨source, hsource⟩
  have hread := eq_ok_of_toOption hsource
  unfold Source.read at hread
  split at hread
  · next bytes hbytes =>
    exact Workspace.fileAt?_of_read (Path.isAbsolute_append _ hbase) hbytes
  · split at hread <;> cases hread
  · cases hread

/-- A unit that is made at some time is made from the file that its name leads to. -/
lemma madeFrom_location (hbase : base.isAbsolute = true)
    (h : MadeDuring view notes (IsAnyUnit base options) unit) :
    MadeDuring view notes
      (IsMadeFrom base options (locate base unit.name).normalize.segments) unit := by
  obtain ⟨ns, hns, hmade⟩ := h
  exact ⟨ns, hns, hmade, (hmade.fileAt? hbase).1⟩

/-- Whenever a unit is read, it is from the same location, which is not the root. -/
lemma location_of_madeFrom (hbase : base.isAbsolute = true)
    (h : MadeDuring view notes (IsMadeFrom base options loc) unit) :
    (locate base unit.name).normalize.segments = loc ∧ loc ≠ [] := by
  obtain ⟨ns, -, hmade, hloc⟩ := h
  obtain ⟨hfile, hne⟩ := hmade.fileAt? hbase
  obtain rfl : _ = loc := Option.some.inj (hfile.symm.trans hloc)
  exact ⟨rfl, hne⟩

/-- Every name is one that an entry or a specifier stands for. -/
lemma exists_canonical {names : List String} {units : List CompiledUnit} {new : List String}
    (hnames : entries.mapM (nameOf options) = .ok names)
    (hunits : Adds (MadeDuring view notes (IsAnyUnit base options)) names [] units new)
    (hunit : unit ∈ units) :
    ∃ name referrer, ModuleName.canonical name referrer options = .ok unit.name := by
  obtain ⟨start, hstart, hreach⟩ :=
    hunits.exists_reaches unit.name (mem_names.mpr ⟨unit, hunit, rfl⟩)
  rcases Relation.ReflTransGen.cases_tail hreach with hname | ⟨_, -, importer, himporter, -, -, hdep⟩
  · obtain ⟨entry, -, hentry⟩ := (mem_of_mapM_eq_ok hnames).2 start hstart
    rw [← hname] at hentry
    exact ⟨entry.name, options.referrerName, hentry⟩
  · obtain ⟨ns, -, kind, hmade⟩ := hunits.made_of_mem importer himporter
    cases kind with
    | module =>
      obtain ⟨source, -, hdependencies, -⟩ := hmade
      obtain ⟨specifier, -, hspecifier⟩ := (mem_of_mapM_eq_ok hdependencies).2 unit.name hdep
      exact ⟨specifier, .text importer.name, hspecifier⟩
    | script =>
      obtain ⟨source, -, himporter⟩ := hmade
      rw [himporter] at hdep
      cases hdep

/-- A slash in the extension makes several segments of one. -/
def HasSlash (options : Options) : Prop :=
  ∃ e, ModuleName.extension options = .ok e ∧ '/' ∈ e.toList

/-- Different names of one compilation that lead to the same file do not start alike, and one of
them makes a detour. -/
lemma detours_of_canonical (hbase : base.isAbsolute = true) (hnormal : ".." ∉ base.segments)
    {a b name name' : String} {referrer referrer' : Value} (hslash : ¬ HasSlash options)
    (ha : ModuleName.canonical name referrer options = .ok a)
    (hb : ModuleName.canonical name' referrer' options = .ok b) (hne : a ≠ b)
    (hloc : (locate base a).normalize.segments = loc)
    (hloc' : (locate base b).normalize.segments = loc) (hroot : loc ≠ []) :
    ((Path.ofString a).anchor ≠ (Path.ofString b).anchor ∨
      (Path.ofString a).climb ≠ (Path.ofString b).climb) ∧
    (Path.Detours base (.ofString a) ∨ Path.Detours base (.ofString b)) := by
  have hextension : ∀ e, ModuleName.extension options = .ok e → '/' ∉ e.toList :=
    fun e he hmem => hslash ⟨e, he, hmem⟩
  have hfile : (Path.ofString a).isAbsolute = true → (Path.ofString a).normalize.segments ≠ [] := by
    intro habsolute
    rwa [← Path.append_absolute base habsolute, ← locate, hloc]
  have hfile' : (Path.ofString b).isAbsolute = true → (Path.ofString b).normalize.segments ≠ [] := by
    intro habsolute
    rwa [← Path.append_absolute base habsolute, ← locate, hloc']
  have hpath : Path.ofString a ≠ Path.ofString b :=
    fun heq => hne (ModuleName.canonical_inj ha hb hextension hfile heq)
  exact Path.detours_of_location_eq hbase hnormal
    (ModuleName.isNormal_of_canonical ha hextension hfile)
    (ModuleName.isNormal_of_canonical hb hextension hfile') hpath (hloc.trans hloc'.symm)

/-! ### Merged requests -/

/-- The units of a tree are made from files, and only detours make several units from one file;
`notes` are all notes of the compilation. -/
structure SharesByDetour (view : View) (notes : List Note) (base : Path) (options : Options)
    (tree : Tree) : Prop where
  distinct : (names (Element.units tree)).Nodup
  made : ∀ unit ∈ Element.units tree, ∃ loc,
    MadeDuring view notes (IsMadeFrom base options loc) unit
  shared : ¬ HasSlash options → ∀ u ∈ Element.units tree, ∀ v ∈ Element.units tree, ∀ loc,
    MadeDuring view notes (IsMadeFrom base options loc) u →
    MadeDuring view notes (IsMadeFrom base options loc) v → u ≠ v →
    ((Path.ofString u.name).anchor ≠ (Path.ofString v.name).anchor ∨
      (Path.ofString u.name).climb ≠ (Path.ofString v.name).climb) ∧
    (Path.Detours base (.ofString u.name) ∨ Path.Detours base (.ofString v.name))

/-- The tree of a compilation below a normal absolute directory has several units of one file only
by detours. -/
lemma compileEntries_sharesByDetour (hbase : base.isAbsolute = true)
    (hnormal : ".." ∉ base.segments)
    (h : (compileEntries (Source.loader reporting nesting) view entries options base memory).1
      = .ok (some tree)) :
    SharesByDetour view
      (compileEntries (Source.loader reporting nesting) view entries options base memory).2.notes
      base options tree := by
  obtain ⟨asked, loaded, hasked, hunits⟩ := compileEntries_adds h
  refine ⟨hunits.nodup_names, ?_, ?_⟩
  · intro unit hunit
    exact ⟨_, madeFrom_location hbase (hunits.made_of_mem unit hunit)⟩
  · intro hslash u hu v hv loc hmade hmade' hne
    obtain ⟨_, _, hcanonical⟩ := exists_canonical hasked hunits hu
    obtain ⟨_, _, hcanonical'⟩ := exists_canonical hasked hunits hv
    obtain ⟨hloc, hroot⟩ := location_of_madeFrom hbase hmade
    obtain ⟨hloc', -⟩ := location_of_madeFrom hbase hmade'
    have hnames : u.name ≠ v.name :=
      fun heq => hne (eq_of_name_eq hunits.nodup_names hu hv heq)
    exact detours_of_canonical hbase hnormal hslash hcanonical hcanonical' hnames hloc hloc' hroot

lemma not_mem_segments_directory {request : Request} {w : Workspace}
    (houtput : (request.target w).isAbsolute = true) : ".." ∉ (request.directory w).segments := by
  have hnormal : Path.IsNormal (request.target w).isAbsolute (request.target w).segments :=
    Path.isNormal_collapse _ _
  rw [houtput] at hnormal
  intro hmem
  exact hnormal.not_mem (List.dropLast_subset _ hmem)

/-- A merged request whose output has an absolute path reads a file for several units only under
names that do not start alike, all but one of which make a detour. -/
theorem merge_sharesByDetour {request : Request} {work : Work (Record (List (Value × String)))}
    (houtput : (request.target work.workspace).isAbsolute = true)
    (h : (carryOut (merge (Source.loader reporting nesting) request) work).1 = .ok (some tree)) :
    ∃ entries, request.entriesIn work.workspace = .ok entries ∧
      SharesByDetour (request.view work)
        (request.compile (Source.loader reporting nesting) entries work).2.notes
        (request.directory work.workspace) request.mergeOptions tree := by
  obtain ⟨entries, hentries, htree⟩ := merge_ok h
  refine ⟨entries, hentries, ?_⟩
  exact compileEntries_sharesByDetour houtput (not_mem_segments_directory houtput) htree

/-- A project with a file in the directory that the output is written to. -/
def nestedProject : Work (Record (List (Value × String))) where
  workspace :=
    { files := ⟨[
        (["p"], .directory),
        (["p", "main.js"], .file "import \"./out/file.js\";\nimport \"./lib/../lib/a\";\n".toUTF8),
        (["p", "lib"], .directory),
        (["p", "lib", "a.js"], .file "export var a;\n".toUTF8),
        (["p", "out"], .directory),
        (["p", "out", "file.js"], .file "export var f;\n".toUTF8)]⟩
      cwd := some []
      start := ⟨.root, ["p"]⟩ }
  memory := { memory := [] }

/-- The file in the output directory, which `main.js` imports, is an entry of its own. -/
def nestedRequest : Request where
  output := "out/app.js"
  entries := [⟨"out/file.js", .module⟩, ⟨"main.js", .module⟩, ⟨"./lib/a.js", .module⟩]
  options := none
  base := none

/-- The tree of this request. -/
def nestedTree : Tree := [
  .compiled { name := "file.js", text := "// file.js\nexport var f;" },
  .compiled { name := "../out/file.js", text := "// ../out/file.js\nexport var f;" },
  .compiled { name := "../lib/a.js", text := "// ../lib/a.js\nexport var a;" },
  .compiled { name := "../main.js",
              text := "// ../main.js\nimport \"./out/file.js\";\nimport \"./lib/../lib/a\";",
              dependencies := ["../out/file.js", "../lib/a.js"] }]

lemma merge_nested :
    (carryOut (merge (Source.loader false 8) nestedRequest) nestedProject).1 = .ok (some nestedTree) :=
  eq_ok_of_toOption (by decide +kernel)

theorem sharesByDetour_nestedTree :
    ((nestedRequest.target nestedProject.workspace).isAbsolute = true) ∧
    (carryOut (merge (Source.loader false 8) nestedRequest) nestedProject).1
      = .ok (some nestedTree) ∧
    ∃ entries, nestedRequest.entriesIn nestedProject.workspace = .ok entries ∧
      SharesByDetour (nestedRequest.view nestedProject)
        (nestedRequest.compile (Source.loader false 8) entries nestedProject).2.notes
        (nestedRequest.directory nestedProject.workspace) nestedRequest.mergeOptions nestedTree :=
  ⟨rfl, merge_nested, merge_sharesByDetour rfl merge_nested⟩

/-- A file may be read for two units, if it is in the directory of the output and imported from
outside it. -/
theorem file_not_always_made_once :
    ¬ ∀ (nesting : Nat) (request : Request) (work : Work (Record (List (Value × String))))
      (tree : Tree) (entries : List Entry), (request.target work.workspace).isAbsolute = true →
      (carryOut (merge (Source.loader false nesting) request) work).1 = .ok (some tree) →
      request.entriesIn work.workspace = .ok entries →
      ∀ u ∈ Element.units tree, ∀ v ∈ Element.units tree, ∀ loc,
        MadeDuring (request.view work)
          (request.compile (Source.loader false nesting) entries work).2.notes
          (IsMadeFrom (request.directory work.workspace) request.mergeOptions loc) u →
        MadeDuring (request.view work)
          (request.compile (Source.loader false nesting) entries work).2.notes
          (IsMadeFrom (request.directory work.workspace) request.mergeOptions loc) v →
        u = v := by
  intro hall
  obtain ⟨entries, hentries, htree⟩ := merge_ok merge_nested
  obtain ⟨_, _, -, hunits⟩ := compileEntries_adds htree
  have hfile := madeFrom_location rfl
    (hunits.made_of_mem { name := "file.js", text := "// file.js\nexport var f;" } (by decide))
  have hfile' := madeFrom_location rfl
    (hunits.made_of_mem { name := "../out/file.js", text := "// ../out/file.js\nexport var f;" }
      (by decide))
  have heq := hall 8 nestedRequest nestedProject nestedTree entries rfl merge_nested hentries _
    (by decide) _ (by decide) _ hfile hfile'
  simp at heq

end Bundler.Compile
