import Bundler.Proofs.EntryLoading

/-!
# Evaluations and what they evaluate

Where modules are registered, the tree holds a statement that evaluates each module entry. The unit
of that name always stands before the statement. It is a registration unless the name was first
loaded as a script: scripts and modules share the names that are loaded, so a module entry whose
name is that of a script adds nothing but the evaluation.
-/

namespace Bundler.Compile

open Load Load.Source Bundler.Units

variable {reporting : Bool} {nesting : Nat} {view : View} {entry : Entry} {entries : List Entry}
  {options : Options} {base : Path} {memory : List (Value × String)} {tree : Tree}
  {run run' : Run (List (Value × String))}

/-! ### The unit before an evaluation -/

/-- Between entries every load that has begun is over, and evaluations stand behind their units. -/
structure IsSettled (s : Session) : Prop where
  loaded : ∀ name ∈ s.loaded, name ∈ names (Element.units s.elements)
  evaluations : ∀ before name after, s.elements = before ++ .evaluation name :: after →
    name ∈ names (Element.units before)

lemma isSettled_newRun (base : Path) (memory : List (Value × String)) :
    IsSettled (newRun base memory).session := by
  refine ⟨by simp [newRun], ?_⟩
  intro before name after hsplit
  simp [newRun] at hsplit

/-- A load of an entry leaves a settled session settled. -/
lemma loadEntry_isSettled (hs : IsSettled run.session)
    (h : loadEntry (Source.loader reporting nesting) view options entry run = (.ok (), run')) :
    IsSettled run'.session := by
  obtain ⟨name, units, -, -, -, helements, hunits⟩ := loadEntry_adds h
  have hloaded : ∀ n ∈ run'.session.loaded,
      n ∈ names (Element.units (run.session.elements ++ units.map .compiled)) := by
    intro n hn
    rw [Element.units_append, Element.units_map_compiled, names_append, List.mem_append]
    rcases (hunits.mem_new_iff n).mp hn with hold | hnew
    · exact Or.inl (hs.loaded n hold)
    · exact Or.inr hnew
  constructor
  · intro n hn
    rw [helements, Element.units_append, units_evaluationsOf, List.append_nil]
    exact hloaded n hn
  · intro before n after hsplit
    rw [helements] at hsplit
    rcases split_append hsplit with ⟨rest, hrest⟩ | ⟨start, rfl, hstart⟩
    · rcases split_append hrest with ⟨rest', hrest'⟩ | ⟨start, rfl, hstart⟩
      · exact hs.evaluations before n rest' hrest'
      · -- no unit is an evaluation
        have hmem : Element.evaluation n ∈ units.map .compiled := by simp [hstart]
        simp at hmem
    · unfold evaluationsOf at hstart
      split at hstart
      · obtain ⟨rfl, rfl, -⟩ : start = [] ∧ n = name ∧ after = [] := by
          cases start <;> simp_all
        rw [List.append_nil]
        exact hloaded n (hunits.asked_subset (List.mem_singleton_self _))
      · simp at hstart

/-- Whatever the order of entries, the unit of a name stands before its evaluation. -/
lemma unit_before_evaluation
    (h : (compileEntries (Source.loader reporting nesting) view entries options base memory).1
      = .ok (some tree)) {before after : Tree} {name : String}
    (hsplit : tree = before ++ .evaluation name :: after) :
    name ∈ names (Element.units before) := by
  obtain ⟨run, hrun, rfl, -⟩ := compileEntries_ok h
  have hsettled := inOrder_preserves (P := fun run => IsSettled run.session)
    (fun _ _ _ => loadEntry_isSettled) (isSettled_newRun base memory) hrun
  exact hsettled.evaluations before name after hsplit

/-! ### The first entry that leads to a name -/

/-- The entry is the first one that leads to a name. -/
def LeadsFirst (options : Options) (entries : List Entry) (us : List CompiledUnit) (name : String)
    (entry : Entry) : Prop :=
  ∃ earlier later start, entries = earlier ++ entry :: later ∧ nameOf options entry = .ok start ∧
    Reaches us start name ∧
    ∀ e ∈ earlier, ∀ start, nameOf options e = .ok start → ¬ Reaches us start name

/-- An entry that leads to a name is the first one that does or stands behind it. -/
lemma exists_leadsFirst {us : List CompiledUnit} {name start : String} (hentry : entry ∈ entries)
    (hname : nameOf options entry = .ok start) (hreach : Reaches us start name) :
    ∃ first, LeadsFirst options entries us name first := by
  induction entries with
  | nil => cases hentry
  | cons e es ih =>
    by_cases hlead : ∃ start, nameOf options e = .ok start ∧ Reaches us start name
    · obtain ⟨start, hname, hreach⟩ := hlead
      exact ⟨e, [], es, start, rfl, hname, hreach, by simp⟩
    · rcases List.mem_cons.mp hentry with rfl | hentry
      · exact absurd ⟨start, hname, hreach⟩ hlead
      · obtain ⟨first, earlier, later, start, rfl, hname, hreach, hearlier⟩ := ih hentry
        refine ⟨first, e :: earlier, later, start, rfl, hname, hreach, ?_⟩
        intro e' he' start' hname' hreach'
        rcases List.mem_cons.mp he' with rfl | he'
        · exact hlead ⟨start', hname', hreach'⟩
        · exact hearlier e' he' start' hname' hreach'

/-- What an entry adds is of its kind. -/
lemma kind_of_mem_added {kind : EntryKind} {notes : List Note} {asked old new : List String}
    {units : List CompiledUnit}
    (hunits : Adds (MadeDuring view notes (IsUnit kind base options)) asked old units new) :
    ∀ unit ∈ units, unit.kind = kind.word := by
  intro unit hmem
  obtain ⟨ns, -, hmade⟩ := hunits.made_of_mem unit hmem
  cases kind with
  | module => exact IsModule.kind hmade
  | script => exact IsScript.kind hmade

/-- A unit is of the kind of the first entry that leads to it. -/
theorem kind_of_leadsFirst
    (h : (compileEntries (Source.loader reporting nesting) view entries options base memory).1
      = .ok (some tree)) {unit : CompiledUnit} (hunit : unit ∈ Element.units tree)
    (hfirst : LeadsFirst options entries (Element.units tree) unit.name entry) :
    unit.kind = entry.kind.word := by
  obtain ⟨earlier, later, start, rfl, hname, hreach, hearlier⟩ := hfirst
  obtain ⟨run, hrun, rfl, -⟩ := compileEntries_ok h
  obtain ⟨mid, hmid, hrun⟩ := inOrder_append_eq_ok_iff.mp hrun
  obtain ⟨mid', hmid', hrun⟩ := inOrder_cons_eq_ok_iff.mp hrun
  obtain ⟨asked₁, us₁, hasked₁, -, -, helements₁, hunits₁⟩ := loadEntries_adds earlier hmid
  obtain ⟨_, us₂, hname₂, -, -, helements₂, hunits₂⟩ := loadEntry_adds hmid'
  obtain ⟨asked₃, us₃, -, -, -, helements₃, hunits₃⟩ := loadEntries_adds later hrun
  obtain rfl : start = _ := Except.ok.inj (hname.symm.trans hname₂)
  have hall : Element.units run.session.elements = us₁ ++ us₂ ++ us₃ := by
    rw [helements₃, helements₂]
    simp [helements₁, newRun]
  rw [hall] at hunit hreach hearlier
  -- the units of the entries up to this one, and of all entries
  have hfirst := (hunits₁.mono fun _ _ => trivial).append
    ((hunits₂.mono fun _ _ => trivial) : Adds (fun _ => True) _ _ _ _)
  have hnodup := (hfirst.append (hunits₃.mono fun _ _ => trivial)).nodup_names
  have hloaded : ∀ name, name ∈ mid'.session.loaded ↔ name ∈ names (us₁ ++ us₂) := by
    intro name
    simp [hfirst.mem_new_iff name, newRun]
  have hmem : unit.name ∈ names (us₁ ++ us₂) := by
    apply Reaches.mem_names_left hnodup _ hreach
    · exact (hloaded start).mp (hunits₂.asked_subset (List.mem_singleton_self _))
    · intro unit hunit name hname
      exact (hloaded name).mp (hfirst.dependencies_subset unit hunit hname)
  rw [names_append, List.mem_append] at hmem
  rcases hmem with hmem | hmem
  · obtain ⟨start', hstart', hreach'⟩ := hunits₁.exists_reaches _ hmem
    obtain ⟨e, he, hname'⟩ := (mem_of_mapM_eq_ok hasked₁).2 start' hstart'
    refine absurd (hreach'.mono ?_) (hearlier e he start' hname')
    intro u hu
    exact List.mem_append_left _ (List.mem_append_left _ hu)
  · obtain ⟨unit', hunit', hname'⟩ := mem_names.mp hmem
    have hin : unit' ∈ us₁ ++ us₂ ++ us₃ := by simp [hunit']
    rw [eq_of_name_eq hnodup hunit hin hname'.symm]
    exact kind_of_mem_added hunits₂ unit' hunit'

/-! ### Evaluations of registered modules -/

/-- The unit registers a module under a name. -/
def Registers (unit : CompiledUnit) (name : String) : Prop :=
  unit.kind = "module" ∧ unit.name = name ∧
    ∃ source, unit.text = CompiledUnit.registration name unit.dependencies source

/-- The unit of an evaluated name always stands before the evaluation, and it registers the name
exactly if the first entry that leads to the name is a module. -/
theorem registered_before_evaluation_iff
    (h : (compileEntries (Source.loader reporting nesting) view entries options base memory).1
      = .ok (some tree)) (hregister : options.isRegister = true) {before after : Tree}
    {name : String} (hsplit : tree = before ++ .evaluation name :: after) :
    name ∈ names (Element.units before) ∧
      ((∃ unit ∈ Element.units before, Registers unit name) ↔
        ∃ entry, LeadsFirst options entries (Element.units tree) name entry ∧
          entry.kind = .module) := by
  have hmem := unit_before_evaluation h hsplit
  refine ⟨hmem, ?_⟩
  have hsub : Element.units before ⊆ Element.units tree := by
    rw [hsplit, Element.units_append]
    exact List.subset_append_left _ _
  obtain ⟨asked, loaded, hasked, hunits⟩ := compileEntries_adds h
  constructor
  · rintro ⟨unit, hunit, hkind, rfl, -⟩
    obtain ⟨start, hstart, hreach⟩ :=
      hunits.exists_reaches unit.name (mem_names.mpr ⟨unit, hsub hunit, rfl⟩)
    obtain ⟨entry, hentry, hname⟩ := (mem_of_mapM_eq_ok hasked).2 start hstart
    obtain ⟨first, hfirst⟩ := exists_leadsFirst hentry hname hreach
    refine ⟨first, hfirst, ?_⟩
    have hword := kind_of_leadsFirst h (hsub hunit) hfirst
    rw [hkind] at hword
    cases hfirst' : first.kind with
    | module => rfl
    | script =>
      rw [hfirst'] at hword
      simp [EntryKind.word] at hword
  · rintro ⟨entry, hfirst, hkind⟩
    obtain ⟨unit, hunit, rfl⟩ := mem_names.mp hmem
    have hword := kind_of_leadsFirst h (hsub hunit) hfirst
    rw [hkind] at hword
    refine ⟨unit, hunit, hword, rfl, ?_⟩
    obtain ⟨ns, -, kind, hmade⟩ := hunits.made_of_mem unit (hsub hunit)
    cases kind with
    | module => exact IsModule.text hmade hregister
    | script =>
      rw [IsScript.kind hmade] at hword
      simp [EntryKind.word] at hword

/-- A module with a dependency, and a script. -/
def sharedProject : Workspace where
  files := ⟨[
    (["p"], .directory),
    (["p", "main.js"], .file "import \"./dep.js\";\n".toUTF8),
    (["p", "dep.js"], .file "export var d;\n".toUTF8),
    (["p", "s.js"], .file "start();\n".toUTF8)]⟩
  cwd := some []
  start := ⟨.root, []⟩

/-- The tree of the entries `s.js` and `dep.js`, both scripts and modules, around `main.js`. The
script `dep.js` comes when the module is there. -/
def sharedTree : Tree := [
  .compiled { name := "s.js", kind := "script", text := "// s.js\nstart();" },
  .compiled { name := "dep.js",
              text := CompiledUnit.registration "dep.js" [] "export var d;" },
  .compiled { name := "main.js", dependencies := ["dep.js"],
              text := CompiledUnit.registration "main.js" ["dep.js"] "import \"./dep.js\";" },
  .evaluation "main.js"]

theorem registered_before_evaluation_dep :
    (compileEntries (Source.loader false 8) (fun _ => sharedProject)
      [⟨"s.js", .script⟩, ⟨"main.js", .module⟩, ⟨"dep.js", .script⟩, ⟨"dep.js", .module⟩]
      { moduleMode := some .register } ⟨.root, ["p"]⟩ []).1
        = .ok (some (sharedTree ++ .evaluation "dep.js" :: [])) ∧
    (({ moduleMode := some .register } : Options).isRegister = true) ∧
    ("dep.js" ∈ names (Element.units sharedTree) ∧
      ((∃ unit ∈ Element.units sharedTree, Registers unit "dep.js") ↔
        ∃ entry, LeadsFirst { moduleMode := some .register }
          [⟨"s.js", .script⟩, ⟨"main.js", .module⟩, ⟨"dep.js", .script⟩, ⟨"dep.js", .module⟩]
          (Element.units (sharedTree ++ .evaluation "dep.js" :: [])) "dep.js" entry ∧
            entry.kind = .module)) := by
  have h : (compileEntries (Source.loader false 8) (fun _ => sharedProject)
      [⟨"s.js", .script⟩, ⟨"main.js", .module⟩, ⟨"dep.js", .script⟩, ⟨"dep.js", .module⟩]
      { moduleMode := some .register } ⟨.root, ["p"]⟩ []).1
        = .ok (some (sharedTree ++ .evaluation "dep.js" :: [])) :=
    eq_ok_of_toOption (by decide +kernel)
  exact ⟨h, rfl, registered_before_evaluation_iff h rfl rfl⟩

/-- An entry may be evaluated that was only ever loaded as a script. -/
theorem evaluation_not_always_registered :
    ¬ ∀ (nesting : Nat) (w : Workspace) (entries : List Entry) (options : Options) (base : Path)
      (tree before after : Tree) (name : String), options.isRegister = true →
      (compileEntries (Source.loader false nesting) (fun _ => w) entries options base []).1
        = .ok (some tree) →
      tree = before ++ .evaluation name :: after →
      ∃ unit ∈ Element.units before, unit.kind = "module" ∧ unit.name = name := by
  intro hall
  have h : (compileEntries (Source.loader false 8) (fun _ => sharedProject)
      [⟨"s.js", .script⟩, ⟨"s.js", .module⟩] { moduleMode := some .register } ⟨.root, ["p"]⟩ []).1
        = .ok (some [.compiled { name := "s.js", kind := "script", text := "// s.js\nstart();" },
          .evaluation "s.js"]) :=
    eq_ok_of_toOption (by decide +kernel)
  obtain ⟨unit, hunit, hkind, -⟩ := hall _ _ _ _ _ _ [_] [] "s.js" rfl h rfl
  obtain rfl := List.mem_singleton.mp hunit
  simp at hkind

end Bundler.Compile
