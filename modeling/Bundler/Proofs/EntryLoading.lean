import Bundler.Compile.Entries
import Bundler.Proofs.SourceLoading

/-!
# What a list of entries adds

Entries are loaded one after another into one session, so what they add is again described by
`Adds`: the names asked for are the names of the entries, in order. Evaluations are no units and
stand between them.
-/

namespace Bundler.Compile

open Load Load.Source

variable {σ : Type} {loader : Loader σ} {view : View} {options : Options} {entry : Entry}
  {entries : List Entry}

lemma eq_ok_of_toOption {ε α : Type} {x : Except ε α} {a : α} (h : x.toOption = some a) :
    x = .ok a := by
  cases x with
  | error e => cases h
  | ok b =>
    cases h
    rfl

lemma ne_error_of_toOption {ε α : Type} {x : Except ε α} (h : x.toOption.isSome = true) (e : ε) :
    x ≠ .error e := by
  rintro rfl
  cases h

/-- The name of the module or script that an entry asks for. -/
def nameOf (options : Options) (entry : Entry) : Except Failure String :=
  ModuleName.canonical entry.name options.referrerName options

/-- The evaluation that follows what an entry adds, if modules are registered. -/
def evaluationsOf (options : Options) (entry : Entry) (name : String) : Tree :=
  if entry.kind = .module ∧ options.isRegister then [.evaluation name] else []

@[simp] lemma units_evaluationsOf (options : Options) (entry : Entry) (name : String) :
    Element.units (evaluationsOf options entry name) = [] := by
  unfold evaluationsOf
  split <;> rfl

lemma addEvaluation_ok {run run' : Run σ} {name : String}
    (hname : loader.nameOf entry.name options.referrerName options = .ok name)
    (h : addEvaluation loader options entry run = (.ok (), run')) :
    run' = { run with session := { run.session with
      elements := run.session.elements ++ evaluationsOf options entry name } } := by
  unfold addEvaluation at h
  split at h
  · next hregister =>
    rw [hname] at h
    dsimp only [Session.append] at h
    split at h
    · cases h
    · next session hsession =>
      split at hsession
      · cases hsession
      · cases hsession
        cases h
        rw [evaluationsOf, if_pos hregister]
  · next hregister =>
    cases h
    rw [evaluationsOf, if_neg hregister, List.append_nil]

/-! ### One entry -/

variable {reporting : Bool} {nesting : Nat} {run run' : Run (List (Value × String))}

/-- What stays the same during the load of an entry. -/
def scopeOf (reporting : Bool) (view : View) (options : Options) (entry : Entry)
    (run : Run (List (Value × String))) : Scope :=
  ⟨fun ns => view (run.notes ++ [entryNote entry] ++ ns), run.session.base, options, reporting⟩

/-- The load of an entry in a scope. -/
def loadIn (scope : Scope) (nesting : Nat) (entry : Entry) (run : Run (List (Value × String))) :
    Except Failure Unit × Run (List (Value × String)) :=
  loadEntry (Source.loader scope.reporting nesting) scope.view scope.options entry run

/-- The compilation of entries in a scope. -/
def compileIn (scope : Scope) (nesting : Nat) (entries : List Entry)
    (memory : List (Value × String)) :
    Except Failure (Option Tree) × Run (List (Value × String)) :=
  compileEntries (Source.loader scope.reporting nesting) scope.view entries scope.options scope.base
    memory

/-- An entry that is loaded in a scope sees it after the notes taken so far and its own. -/
lemma scopeOf_eq_after {scope : Scope} (entry : Entry) (hbase : run.session.base = scope.base) :
    scopeOf scope.reporting scope.view scope.options entry run
      = scope.after (run.notes ++ [entryNote entry]) := by
  rw [scopeOf, hbase]
  rfl

/-- The state in which the load of an entry begins. -/
def stateOf (run : Run (List (Value × String))) : State :=
  { loaded := run.session.loaded, reports := run.memory }

/-- The run after the load of an entry that has left some state. -/
def Run.after (run : Run (List (Value × String))) (entry : Entry) (t : State) :
    Run (List (Value × String)) where
  session := { run.session with
    elements := run.session.elements ++ t.added
    loaded := t.loaded }
  memory := t.reports
  notes := run.notes ++ [entryNote entry] ++ t.notes

lemma loadEntry_eq (view : View) (options : Options) (entry : Entry)
    (run : Run (List (Value × String))) :
    loadEntry (Source.loader reporting nesting) view options entry run =
      let x := load (scopeOf reporting view options entry run) nesting (callOf options entry)
        (stateOf run)
      match x.1 with
      | .error failure => (.error failure, run.after entry x.2)
      | .ok () => addEvaluation (Source.loader reporting nesting) options entry
          (run.after entry x.2) := rfl

/-- A successful load of an entry adds units of its kind and then, for a module that is registered,
its evaluation. -/
theorem loadEntry_adds
    (h : loadEntry (Source.loader reporting nesting) view options entry run = (.ok (), run')) :
    ∃ name units, nameOf options entry = .ok name ∧ run'.session.base = run.session.base ∧
      run.notes <+: run'.notes ∧
      run'.session.elements
        = run.session.elements ++ units.map .compiled ++ evaluationsOf options entry name ∧
      Adds (MadeDuring view run'.notes (IsUnit entry.kind run.session.base options)) [name]
        run.session.loaded units run'.session.loaded := by
  simp only [loadEntry, Source.loader] at h
  split at h
  · cases h
  · next hresult =>
    obtain ⟨name, hname, hnotes, units, hadded, hunits⟩ :=
      load_extends (Prod.ext hresult rfl)
    have hrun := addEvaluation_ok hname h
    subst hrun
    refine ⟨name, units, hname, rfl, ?_, ?_, ?_⟩
    · exact (List.prefix_append _ _).trans (List.prefix_append _ _)
    · rw [List.nil_append] at hadded
      rw [← hadded]
      rfl
    · exact hunits.mono fun _ => MadeDuring.append

/-! ### All entries -/

/-- A unit of a module or of a script. -/
def IsAnyUnit (base : Path) (options : Options) (w : Workspace) (unit : CompiledUnit) : Prop :=
  ∃ kind, IsUnit kind base options w unit

lemma IsAnyUnit.kind_of_mem_dependencies {base : Path} {w : Workspace} {unit : CompiledUnit}
    {name : String} (h : IsAnyUnit base options w unit) (hname : name ∈ unit.dependencies) :
    unit.kind = "module" := by
  obtain ⟨kind, hkind⟩ := h
  cases kind with
  | module => exact IsModule.kind hkind
  | script =>
    obtain ⟨source, -, hunit⟩ := hkind
    rw [hunit] at hname
    cases hname

/-- Entries that are loaded one after another add what a load of all their names adds. -/
theorem loadEntries_adds (entries : List Entry)
    (h : inOrder (loadEntry (Source.loader reporting nesting) view options) entries run
      = (.ok (), run')) :
    ∃ names units, entries.mapM (nameOf options) = .ok names ∧
      run'.session.base = run.session.base ∧ run.notes <+: run'.notes ∧
      Element.units run'.session.elements = Element.units run.session.elements ++ units ∧
      Adds (MadeDuring view run'.notes (IsAnyUnit run.session.base options)) names
        run.session.loaded units run'.session.loaded := by
  induction entries generalizing run with
  | nil =>
    cases h
    exact ⟨[], [], rfl, rfl, List.prefix_refl _, (List.append_nil _).symm, .nothing _⟩
  | cons entry entries ih =>
    obtain ⟨mid, hfirst, hrest⟩ := inOrder_cons_eq_ok_iff.mp h
    obtain ⟨name, units, hname, hbase, hnotes, helements, hunits⟩ := loadEntry_adds hfirst
    obtain ⟨names, units', hnames, hbase', hnotes', helements', hunits'⟩ := ih hrest
    rw [hbase] at hunits'
    refine ⟨name :: names, units ++ units', ?_, hbase'.trans hbase, hnotes.trans hnotes', ?_, ?_⟩
    · exact mapM_cons_eq_ok_iff.mpr ⟨name, names, hname, hnames, rfl⟩
    · rw [helements', helements]
      simp
    · refine (hunits.mono ?_).append hunits'
      intro unit
      exact MadeDuring.mono hnotes' fun _ _ hunit => ⟨entry.kind, hunit⟩

/-- The run of a compilation before its first entry. -/
def newRun (base : Path) (memory : σ) : Run σ := ⟨⟨base, [], [], false⟩, memory, []⟩

/-- A compilation that gives a tree has loaded all entries, and the tree is what they added. -/
lemma compileEntries_ok {base : Path} {memory : σ} {tree : Tree}
    (h : (compileEntries loader view entries options base memory).1 = .ok (some tree)) :
    ∃ run, inOrder (loadEntry loader view options) entries (newRun base memory) = (.ok (), run) ∧
      run.session.elements = tree ∧
      (compileEntries loader view entries options base memory).2.notes = run.notes := by
  unfold compileEntries at h ⊢
  split at h
  · cases h
  · next run hrun =>
    refine ⟨run, hrun, ?_⟩
    split at h
    · cases h
    · next result session hfinish =>
      obtain rfl : result = some tree := by
        cases h
        rfl
      refine ⟨?_, rfl⟩
      unfold Session.finish at hfinish
      split at hfinish
      · cases hfinish
      · split at hfinish
        · cases hfinish
        · cases hfinish
          rfl

/-- The tree of a compilation is what a load of the names of all entries adds to a new session. -/
theorem compileEntries_adds {base : Path} {memory : List (Value × String)} {tree : Tree}
    (h : (compileEntries (Source.loader reporting nesting) view entries options base memory).1
      = .ok (some tree)) :
    ∃ names loaded, entries.mapM (nameOf options) = .ok names ∧
      Adds (MadeDuring view
          (compileEntries (Source.loader reporting nesting) view entries options base memory).2.notes
          (IsAnyUnit base options))
        names [] (Element.units tree) loaded := by
  obtain ⟨run, hrun, rfl, hnotes⟩ := compileEntries_ok h
  obtain ⟨names, units, hnames, -, -, helements, hunits⟩ := loadEntries_adds entries hrun
  obtain rfl : Element.units run.session.elements = units := by simpa [newRun] using helements
  rw [hnotes]
  exact ⟨names, _, hnames, hunits⟩

/-! ### Sessions of compilations -/

/-- A compilation that succeeds has loaded all entries and closed the session. -/
lemma exists_run_of_compileEntries {base : Path} {memory : σ} {answer : Option Tree}
    (h : (compileEntries loader view entries options base memory).1 = .ok answer) :
    ∃ run, inOrder (loadEntry loader view options) entries (newRun base memory) = (.ok (), run) ∧
      (compileEntries loader view entries options base memory).2
        = { run with session := { run.session with closed := true } } := by
  unfold compileEntries at h ⊢
  split at h
  · cases h
  · next run hrun =>
    refine ⟨run, hrun, ?_⟩
    split at h
    · cases h
    · next result session hfinish =>
      unfold Session.finish at hfinish
      split at hfinish <;> cases hfinish
      rfl

/-- The units of a session are what a load of the names of all entries adds, whether a tree is asked
for or not. -/
lemma session_adds {base : Path} {memory : List (Value × String)} {answer : Option Tree}
    (h : (compileEntries (Source.loader reporting nesting) view entries options base memory).1
      = .ok answer) :
    ∃ names, entries.mapM (nameOf options) = .ok names ∧
      Adds (MadeDuring view
          (compileEntries (Source.loader reporting nesting) view entries options base memory).2.notes
          (IsAnyUnit base options)) names []
        (Element.units (compileEntries (Source.loader reporting nesting) view entries options base
          memory).2.session.elements)
        (compileEntries (Source.loader reporting nesting) view entries options base
          memory).2.session.loaded := by
  obtain ⟨run, hrun, hend⟩ := exists_run_of_compileEntries h
  obtain ⟨names, units, hnames, -, -, helements, hunits⟩ := loadEntries_adds entries hrun
  obtain rfl : Element.units run.session.elements = units := by simpa [newRun] using helements
  rw [hend]
  exact ⟨names, hnames, hunits⟩

/-- What a single entry adds to a session is of its kind. -/
lemma session_adds_single {base : Path} {memory : List (Value × String)} {answer : Option Tree}
    (h : (compileEntries (Source.loader reporting nesting) view [entry] options base memory).1
      = .ok answer) :
    ∃ name, nameOf options entry = .ok name ∧
      Adds (MadeDuring view
          (compileEntries (Source.loader reporting nesting) view [entry] options base memory).2.notes
          (IsUnit entry.kind base options)) [name] []
        (Element.units (compileEntries (Source.loader reporting nesting) view [entry] options base
          memory).2.session.elements)
        (compileEntries (Source.loader reporting nesting) view [entry] options base
          memory).2.session.loaded := by
  obtain ⟨run, hrun, hend⟩ := exists_run_of_compileEntries h
  obtain ⟨_, hentry, hrest⟩ := inOrder_cons_eq_ok_iff.mp hrun
  cases hrest
  obtain ⟨name, units, hname, -, -, helements, hunits⟩ := loadEntry_adds hentry
  have hall : Element.units run.session.elements = units := by simp [helements, newRun]
  rw [hend, hall]
  exact ⟨name, hname, hunits⟩

end Bundler.Compile
