import Bundler.Proofs.Counterparts
import Bundler.Proofs.FailedLoads

/-!
# What is reported

A loader that reports files reports one for every name that it loads, in order, and has read the
file before. If it fails, only the last name may be left out, when its file cannot be read. The path
that is shown, read from the base directory, leads to the file.
-/

namespace Bundler

namespace Load.Source

open Bundler.Path

variable {scope : Scope} {s t : State} {name source : String} {referrer : Value} {base : Path}

/-! ### Shown paths -/

/-- A path below a directory goes on from there. -/
lemma eq_append_of_below? {p : Path} {ss : List String} (h : p.below? base = some ss) :
    p = ⟨base.anchor, base.segments ++ ss⟩ := by
  unfold below? at h
  split at h
  · next hbelow =>
    obtain ⟨hanchor, hsegments⟩ := hbelow
    cases h
    obtain ⟨anchor, segments⟩ := p
    rw [Path.mk.injEq]
    refine ⟨hanchor, ?_⟩
    dsimp only at hsegments ⊢
    conv_lhs => rw [← List.take_append_drop base.segments.length segments, hsegments]
  · cases h

/-- What is reported of a name leads to its file, if the name holds no backslash. -/
lemma resolve_shownPath (base : Path) (hname : '\\' ∉ name.toList) :
    Path.resolve (shownPath base (locate base name)) base = (locate base name).normalize := by
  have hwell : (Path.ofString name).WellFormed := wellFormed_ofChars _
  have hplain : ∀ s ∈ (Path.ofString name).segments, '\\' ∉ s.toList :=
    ModuleName.backslash_not_mem_segments hname
  have hshown : base.append (Path.ofString (shownPath base (locate base name)))
      = locate base name := by
    unfold shownPath
    cases hbelow : (locate base name).below? base with
    | some ss =>
      have hpath := eq_append_of_below? hbelow
      have hsegments : ∀ s ∈ ss, s ∈ (Path.ofString name).segments := by
        intro s hs
        by_cases habsolute : (Path.ofString name).isAbsolute = true
        · rw [locate, append_absolute _ habsolute] at hpath
          rw [hpath]
          exact List.mem_append_right _ hs
        · rw [locate, append_relative _ (by simpa using habsolute), Path.mk.injEq] at hpath
          rwa [List.append_cancel_left hpath.2]
      have hwell' : WellFormed ⟨.relative, ss⟩ := fun s hs => hwell s (hsegments s hs)
      dsimp only
      rw [ModuleName.slashed_text fun s hs => hplain s (hsegments s hs), ofString_text hwell',
        append_relative _ rfl, ← hpath]
    | none =>
      have habsolute : (Path.ofString name).isAbsolute = true := by
        by_contra hrelative
        rw [locate, append_relative _ (by simpa using hrelative)] at hbelow
        simp [below?] at hbelow
      dsimp only
      rw [locate, append_absolute _ habsolute, ModuleName.slashed_text hplain, ofString_text hwell,
        append_absolute _ habsolute]
  rw [Path.resolve, hshown]

/-! ### One report for every name -/

/-- What is reported of a name. -/
def reportOf (options : Options) (base : Path) (name : String) : Value × String :=
  (options.dependencyTarget, shownPath base (locate base name))

/-- The loader has reported all names that are loaded, in order. -/
def HasReported (options : Options) (base : Path) (loaded : List String)
    (reports : List (Value × String)) : Prop :=
  reports = loaded.reverse.map (reportOf options base)

/-- The file of the name was read, when some first part of the notes had been taken. -/
def WasRead (scope : Scope) (notes : List Note) (name : String) : Prop :=
  ∃ ns, ns <+: notes ∧ (sourceAt? (scope.view ns) scope.base name).isSome

/-- The files of all names that are loaded have been read and reported, in order. -/
structure Scope.HasRead (scope : Scope) (notes : List Note) (loaded : List String)
    (reports : List (Value × String)) : Prop where
  reported : HasReported scope.options scope.base loaded reports
  read : ∀ name ∈ loaded, WasRead scope notes name

/-- The files of all names that are loaded but the last one have been read and reported; the last
one cannot be read. -/
def Scope.StopsReading (scope : Scope) (failure : Failure) (notes : List Note)
    (loaded : List String) (reports : List (Value × String)) : Prop :=
  ∃ name rest referrer, loaded = name :: rest ∧ scope.HasRead notes rest reports ∧
    Source.read (scope.view notes) (locate scope.base name) name referrer = .error failure

/-- Either way there is a list of the files that have been read, and of no others reports. -/
lemma exists_read {failure : Failure} {notes : List Note} {loaded : List String}
    {reports : List (Value × String)}
    (h : scope.HasRead notes loaded reports ∨ scope.StopsReading failure notes loaded reports) :
    ∃ read : List String, reports = read.map (reportOf scope.options scope.base) ∧
      (∀ name ∈ read, WasRead scope notes name) ∧
      (loaded.reverse = read ∨ ∃ name referrer, loaded.reverse = read ++ [name] ∧
        Source.read (scope.view notes) (locate scope.base name) name referrer = .error failure) := by
  rcases h with ⟨hreported, hread⟩ | ⟨name, rest, referrer, rfl, ⟨hreported, hread⟩, hfailed⟩
  · refine ⟨loaded.reverse, hreported, ?_, Or.inl rfl⟩
    exact fun name hname => hread name (List.mem_reverse.mp hname)
  · refine ⟨rest.reverse, hreported, ?_, Or.inr ⟨name, referrer, List.reverse_cons, hfailed⟩⟩
    exact fun name hname => hread name (List.mem_reverse.mp hname)

lemma Scope.HasRead.mono {notes notes' : List Note} {loaded : List String}
    {reports : List (Value × String)} (hnotes : notes <+: notes')
    (h : scope.HasRead notes loaded reports) : scope.HasRead notes' loaded reports := by
  refine ⟨h.reported, fun name hname => ?_⟩
  obtain ⟨ns, hns, hread⟩ := h.read name hname
  exact ⟨ns, hns.trans hnotes, hread⟩

/-- The state of a loader that has read and reported all names, after earlier notes. -/
def State.IsReported (scope : Scope) (earlier : List Note) (s : State) : Prop :=
  scope.HasRead (earlier ++ s.notes) s.loaded s.reports

/-- The state of a loader that could not read its last file, after earlier notes. -/
def State.Stops (scope : Scope) (earlier : List Note) (failure : Failure) (s : State) : Prop :=
  scope.StopsReading failure (earlier ++ s.notes) s.loaded s.reports

section

variable {earlier : List Note} {failure : Failure} (hreporting : scope.reporting = true)
  (htarget : scope.options.dependencyTarget.truthy = true)
include hreporting htarget

/-- A file that is read is reported. -/
lemma enter_isReported (hs : s.IsReported scope earlier)
    (h : enter (scope.after earlier) name referrer s = (.ok source, t)) :
    t.IsReported scope earlier := by
  obtain ⟨-, -, hnotes, hsource⟩ := enter_ok h
  obtain ⟨hreported, hread⟩ := hs.mono ((List.prefix_append_right_inj earlier).mpr hnotes)
  simp only [enter] at h
  split at h
  · cases h
  · obtain ⟨-, rfl⟩ := Prod.mk.inj h
    simp only [Scope.after, report, htarget, hreporting, Bool.not_true, Bool.false_eq_true,
      if_false, if_true] at hreported hread ⊢
    constructor
    · unfold HasReported at hreported ⊢
      simp [hreported, reportOf]
    · intro other hother
      rcases List.mem_cons.mp hother with rfl | hother
      · exact ⟨earlier ++ s.notes, List.prefix_refl _, Option.isSome_of_eq_some hsource⟩
      · exact hread other hother

/-- The load of a name fails when its file is read, or not at all. -/
lemma enter_stops (hs : s.IsReported scope earlier)
    (h : enter (scope.after earlier) name referrer s = (.error failure, t)) :
    t.Stops scope earlier failure := by
  simp only [enter] at h
  split at h
  · next hread =>
    cases h
    exact ⟨name, s.loaded, referrer, rfl, hs, hread⟩
  · simp only [Scope.after, report, htarget, hreporting] at h
    cases h

/-- The load of a module reports all names that it loads. -/
lemma loadModule_isReported {nesting : Nat} (hs : s.IsReported scope earlier)
    (h : loadModule (scope.after earlier) nesting name referrer s = (.ok (), t)) :
    t.IsReported scope earlier := by
  induction nesting generalizing name referrer s t with
  | zero => cases h
  | succ nesting ih =>
    obtain ⟨canonical, -, ⟨-, rfl⟩ | ⟨-, source, dependencies, message, s₁, s₂, hentered, -, hnested,
      rfl⟩⟩ := loadModule_ok h
    · exact hs
    · have hfirst := enter_isReported hreporting htarget hs hentered
      have hall : s₂.IsReported scope earlier :=
        inOrder_preserves (P := State.IsReported scope earlier) (fun _ _ _ => ih) hfirst hnested
      exact hall.mono ((List.prefix_append_right_inj earlier).mpr (List.prefix_append _ _))

/-- A load of a module that fails has read and reported all names that it loads, unless it fails
because the file of the last one cannot be read. -/
lemma loadModule_stops {nesting : Nat} (hs : s.IsReported scope earlier)
    (h : loadModule (scope.after earlier) nesting name referrer s = (.error failure, t)) :
    t.IsReported scope earlier ∨ t.Stops scope earlier failure := by
  induction nesting generalizing name referrer s t with
  | zero =>
    cases h
    exact Or.inl hs
  | succ nesting ih =>
    rcases loadModule_error h with ⟨-, rfl⟩ | ⟨canonical, -, -, hrest⟩
    · exact Or.inl hs
    rcases hrest with hentered | ⟨source, s₁, hentered, hrest⟩
    · exact Or.inr (enter_stops hreporting htarget hs hentered)
    · have hfirst := enter_isReported hreporting htarget hs hentered
      rcases hrest with ⟨-, rfl⟩ | ⟨_, -, hnested⟩
      · exact Or.inl hfirst
      · obtain ⟨_, _, _, m, -, hbefore, hlast⟩ := exists_of_inOrder_eq_error hnested
        have hmid : m.IsReported scope earlier :=
          inOrder_preserves (P := State.IsReported scope earlier)
            (fun _ _ _ => loadModule_isReported hreporting htarget) hfirst hbefore
        exact ih hmid hlast

lemma load_isReported {nesting : Nat} {call : Call} (hs : s.IsReported scope earlier)
    (h : load (scope.after earlier) nesting call s = (.ok (), t)) : t.IsReported scope earlier := by
  unfold load at h
  split at h
  · exact loadModule_isReported hreporting htarget hs h
  · obtain ⟨canonical, -, ⟨-, rfl⟩ | ⟨-, source, message, s₁, hentered, rfl⟩⟩ := loadScript_ok h
    · exact hs
    · have hfirst := enter_isReported hreporting htarget hs hentered
      exact hfirst.mono ((List.prefix_append_right_inj earlier).mpr (List.prefix_append _ _))

lemma load_stops {nesting : Nat} {call : Call} (hs : s.IsReported scope earlier)
    (h : load (scope.after earlier) nesting call s = (.error failure, t)) :
    t.IsReported scope earlier ∨ t.Stops scope earlier failure := by
  unfold load at h
  split at h
  · exact loadModule_stops hreporting htarget hs h
  · rcases loadScript_error h with ⟨-, rfl⟩ | ⟨canonical, -, -, hentered⟩
    · exact Or.inl hs
    · exact Or.inr (enter_stops hreporting htarget hs hentered)

end

end Load.Source

/-! ### Reports of compilations -/

namespace Compile

open Load Load.Source

variable {scope : Scope} {nesting : Nat} {entry : Entry} {entries : List Entry}
  {run run' : Run (List (Value × String))} {answer : Option Tree} {failure : Failure}

/-- A run in a scope that has read and reported all names. -/
structure Run.IsReported (scope : Scope) (run : Run (List (Value × String))) : Prop where
  below : run.session.base = scope.base
  all : scope.HasRead run.notes run.session.loaded run.memory

section

variable (hreporting : scope.reporting = true)
  (htarget : scope.options.dependencyTarget.truthy = true)
include hreporting htarget

lemma loadIn_isReported (hrun : run.IsReported scope)
    (h : loadIn scope nesting entry run = (.ok (), run')) : run'.IsReported scope := by
  obtain ⟨hbase, hread⟩ := hrun
  have hstart : (stateOf run).IsReported scope (run.notes ++ [entryNote entry]) :=
    hread.mono ((List.prefix_append _ _).trans (List.prefix_append _ _))
  rw [loadIn, loadEntry_eq, scopeOf_eq_after entry hbase] at h
  dsimp only at h
  split at h
  · cases h
  · next hresult =>
    obtain ⟨name, hname, -⟩ := load_extends (Prod.ext hresult rfl)
    have hall := load_isReported hreporting htarget hstart (Prod.ext hresult rfl)
    rw [addEvaluation_ok hname h]
    exact ⟨hbase, hall⟩

lemma inOrder_isReported
    (h : inOrder (loadIn scope nesting) entries (newRun scope.base []) = (.ok (), run)) :
    run.IsReported scope := by
  have hnew : (newRun scope.base ([] : List (Value × String))).IsReported scope :=
    ⟨rfl, rfl, by simp [newRun]⟩
  exact inOrder_preserves (P := Run.IsReported scope)
    (fun _ _ _ => loadIn_isReported hreporting htarget) hnew h

/-- A compilation that lists dependencies reads and reports every name that it loads. -/
theorem compileIn_isReported (h : (compileIn scope nesting entries []).1 = .ok answer) :
    scope.HasRead (compileIn scope nesting entries []).2.notes
      (compileIn scope nesting entries []).2.session.loaded
      (compileIn scope nesting entries []).2.memory := by
  obtain ⟨run, hrun, hend⟩ := exists_run_of_compileEntries h
  rw [compileIn, hend]
  exact (inOrder_isReported hreporting htarget hrun).all

/-- If it fails, it has read and reported every name that it loads, or all but the last one, whose
file cannot be read. -/
theorem compileIn_stops (h : (compileIn scope nesting entries []).1 = .error failure) :
    scope.HasRead (compileIn scope nesting entries []).2.notes
        (compileIn scope nesting entries []).2.session.loaded
        (compileIn scope nesting entries []).2.memory ∨
      scope.StopsReading failure (compileIn scope nesting entries []).2.notes
        (compileIn scope nesting entries []).2.session.loaded
        (compileIn scope nesting entries []).2.memory := by
  obtain ⟨before, entry, after, run, t, -, hbefore, hbase, hload, hend⟩ :=
    exists_run_of_compileEntries_error h
  have hmid := inOrder_isReported hreporting htarget hbefore
  have hstart : (stateOf run).IsReported scope (run.notes ++ [entryNote entry]) :=
    hmid.all.mono ((List.prefix_append _ _).trans (List.prefix_append _ _))
  rw [scopeOf_eq_after entry hbase] at hload
  rw [compileIn, hend]
  exact load_stops hreporting htarget hstart hload

end

/-- A compilation that lists dependencies reports every name that it loads. -/
theorem compileEntries_isReported {view : View} {options : Options} {base : Path}
    (htarget : options.dependencyTarget.truthy = true)
    (h : (compileEntries (Source.loader true nesting) view entries options base []).1 = .ok answer) :
    HasReported options base
      (compileEntries (Source.loader true nesting) view entries options base []).2.session.loaded
      (compileEntries (Source.loader true nesting) view entries options base []).2.memory := by
  have hread : Scope.HasRead ⟨view, base, options, true⟩ _ _ _ :=
    compileIn_isReported rfl htarget h
  exact hread.reported

/-- If it fails, it has reported the files that it has read. -/
theorem compileEntries_stops {view : View} {options : Options} {base : Path}
    (htarget : options.dependencyTarget.truthy = true)
    (h : (compileEntries (Source.loader true nesting) view entries options base []).1
      = .error failure) :
    ∃ read : List String,
      (compileEntries (Source.loader true nesting) view entries options base []).2.memory
        = read.map (reportOf options base) ∧
      (∀ name ∈ read, WasRead ⟨view, base, options, true⟩
        (compileEntries (Source.loader true nesting) view entries options base []).2.notes name) ∧
      ((compileEntries (Source.loader true nesting) view entries options base
          []).2.session.loaded.reverse = read ∨
        ∃ name referrer, (compileEntries (Source.loader true nesting) view entries options base
            []).2.session.loaded.reverse = read ++ [name] ∧
          Source.read (view (compileEntries (Source.loader true nesting) view entries options base
            []).2.notes) (locate base name) name referrer = .error failure) := by
  have hends : Scope.HasRead ⟨view, base, options, true⟩ _ _ _ ∨ _ := compileIn_stops rfl htarget h
  exact exists_read hends

end Compile

end Bundler
