import Mathlib.Data.Set.Card
import Bundler.Proofs.Independence
import Bundler.Proofs.Nesting
import Bundler.Proofs.Visits

/-!
# The first file that cannot be read

Loading modules reads the files of all names that can be reached, in the order of a depth-first
search, and stops at the first that cannot be read. That one gets the blame, with the module that
asked for it first. The files behind it are not read.

Only the nesting of loads could come in between. It does not where more loads may be nested than
there are names that can be reached.
-/

namespace Bundler

/-- Each item of a list has its image at the same place. -/
lemma forall₂_of_mapM_eq_ok {α β ε : Type} {f : α → Except ε β} {p : β → Prop} {as : List α}
    {bs : List β} (h : as.mapM f = .ok bs) (hp : ∀ b ∈ bs, p b) :
    List.Forall₂ (fun a b => f a = .ok b ∧ p b) as bs := by
  induction as generalizing bs with
  | nil =>
    cases h
    exact .nil
  | cons a as ih =>
    obtain ⟨b, rest, hfirst, hrest, rfl⟩ := mapM_cons_eq_ok_iff.mp h
    obtain ⟨hb, hp⟩ := List.forall_mem_cons.mp hp
    exact .cons ⟨hfirst, hb⟩ (ih hrest hp)

namespace Load.Source

/-- The names that the source of a name imports, in order. What cannot be read imports nothing. -/
def imports (w : Workspace) (base : Path) (options : Options) (name : String) : List String :=
  match sourceAt? w base name with
  | none => []
  | some source => ((Specifier.ofSource source).mapM fun specifier =>
      ModuleName.canonical specifier (.text name) options).toOption.getD []

/-- The name leads to a file whose bytes are UTF-8. -/
def IsReadable (w : Workspace) (base : Path) (name : String) : Prop :=
  ∃ content cs, w.read (locate base name) = .ok content ∧ Text.Utf8.decode content = .ok cs

/-- The code of an error says that there is no file to read. -/
def SaysMissing (code : FileTree.Errno) : Prop :=
  code = .noEntry ∨ code = .isDirectory ∨ code = .notDirectory

/-- How a visit is blamed whose file cannot be read. -/
inductive Blames (w : Workspace) (base : Path) (visit : Visit) : Failure → Prop where
  /-- The file is missing, is a directory or lies below a file. -/
  | missing {error : FileError} (hread : w.read (locate base visit.name) = .error (.file error))
      (hcode : SaysMissing error.code) :
      Blames w base visit
        (.resolution visit.name visit.referrer ("no such file " ++ (locate base visit.name).text))
  | undecodable {content : ByteArray} {fault : Text.Utf8.Fault}
      (hread : w.read (locate base visit.name) = .ok content)
      (hdecode : Text.Utf8.decode content = .error fault) :
      Blames w base visit (.compile visit.name ((locate base visit.name).text
        ++ " is not valid UTF-8 (" ++ fault.reason.message ++ " at byte " ++ toString fault.offset
        ++ ")"))
  | other {error : FileError} (hread : w.read (locate base visit.name) = .error (.file error))
      (hcode : ¬ SaysMissing error.code) : Blames w base visit (.file error)
  /-- The name holds the character that ends a path. -/
  | nullByte (hread : w.read (locate base visit.name) = .error .nullByte) :
      Blames w base visit (.invalid "embedded null byte")

variable {w : Workspace} {base : Path} {visit : Visit} {failure : Failure} {name source : String}
  {referrer : Value} {options : Options}

lemma Blames.not_isReadable (h : Blames w base visit failure) : ¬ IsReadable w base visit.name := by
  rintro ⟨content, cs, hread, hdecode⟩
  cases h with
  | undecodable hread' hdecode' =>
    cases hread.symm.trans hread'
    cases hdecode.symm.trans hdecode'
  | missing hread' | other hread' | nullByte hread' => cases hread.symm.trans hread'

/-- A file that is not read gets the blame. -/
lemma blames_of_read (hshown : ∃ text, visit.referrer.describe = .ok text)
    (h : read w (locate base visit.name) visit.name visit.referrer = .error failure) :
    Blames w base visit failure := by
  obtain ⟨text, hshown⟩ := hshown
  unfold read at h
  split at h
  · next content hread =>
    split at h
    · cases h
    · next fault hdecode =>
      cases h
      exact .undecodable hread hdecode
  · next error hread =>
    have hunresolved : unresolved visit.name visit.referrer
        ("no such file " ++ (locate base visit.name).text) = .resolution visit.name visit.referrer
          ("no such file " ++ (locate base visit.name).text) := by
      rw [unresolved, hshown]
    rw [hunresolved] at h
    split at h
    · next hcode =>
      cases h
      exact .missing hread (Or.inl hcode)
    · next hcode =>
      cases h
      exact .missing hread (Or.inr (Or.inl hcode))
    · next hcode =>
      cases h
      exact .missing hread (Or.inr (Or.inr hcode))
    · next hnone hdirectory hfile =>
      cases h
      refine .other hread ?_
      rintro (hcode | hcode | hcode)
      · exact hnone hcode
      · exact hdirectory hcode
      · exact hfile hcode
  · next hread =>
    cases h
    exact .nullByte hread

lemma isReadable_of_sourceAt? (h : sourceAt? w base name = some source) :
    IsReadable w base name := by
  rw [sourceAt?_eq] at h
  obtain ⟨content, hread, htext⟩ := Option.bind_eq_some_iff.mp h
  unfold textOf? at htext
  split at htext
  · next cs hdecode => exact ⟨content, cs, Compile.eq_ok_of_toOption hread, hdecode⟩
  · cases htext

/-! ### Reading in order -/

/-- Files are read in the order of visits up to the first that cannot be read; the last list holds
the visits whose files have been read or tried. Reading may also stop because loads are nested too
deep. -/
inductive Reads (w : Workspace) (base : Path) :
    List Visit → Except Failure Unit → List Visit → Prop where
  | all : Reads w base [] (.ok ()) []
  | read {visit : Visit} {order made : List Visit} {result : Except Failure Unit}
      (hread : IsReadable w base visit.name) (hrest : Reads w base order result made) :
      Reads w base (visit :: order) result (visit :: made)
  | blamed {visit : Visit} {order : List Visit} {failure : Failure}
      (hblames : Blames w base visit failure) :
      Reads w base (visit :: order) (.error failure) [visit]
  | tooDeep (order : List Visit) : Reads w base order (.error .nestedTooDeep) []

namespace Reads

variable {order order' made made' : List Visit} {result : Except Failure Unit}

lemma append (h : Reads w base order (.ok ()) made) (h' : Reads w base order' result made') :
    Reads w base (order ++ order') result (made ++ made') := by
  generalize hok : (Except.ok () : Except Failure Unit) = answer at h
  induction h with
  | all => exact h'
  | read hread _ ih => exact .read hread (ih hok)
  | blamed _ => cases hok
  | tooDeep _ => cases hok

lemma append_error (h : Reads w base order (.error failure) made) :
    Reads w base (order ++ order') (.error failure) made := by
  generalize herror : (Except.error failure : Except Failure Unit) = answer at h
  induction h with
  | all => cases herror
  | read hread _ ih => exact .read hread (ih herror)
  | blamed hblames =>
    cases herror
    exact .blamed hblames
  | tooDeep _ =>
    cases herror
    exact .tooDeep _

lemma of_ok (h : Reads w base order (.ok ()) made) :
    made = order ∧ ∀ visit ∈ order, IsReadable w base visit.name := by
  generalize hok : (Except.ok () : Except Failure Unit) = answer at h
  induction h with
  | all => exact ⟨rfl, nofun⟩
  | read hread _ ih =>
    obtain ⟨rfl, hall⟩ := ih hok
    exact ⟨rfl, List.forall_mem_cons.mpr ⟨hread, hall⟩⟩
  | blamed _ => cases hok
  | tooDeep _ => cases hok

lemma made_prefix (h : Reads w base order result made) : made <+: order := by
  induction h with
  | all => exact List.prefix_refl _
  | read _ _ ih => exact (List.prefix_cons_inj _).mpr ih
  | blamed _ => exact ⟨_, rfl⟩
  | tooDeep _ => exact List.nil_prefix

/-- A failure blames the last visit made, and all files before it can be read. -/
lemma of_error (h : Reads w base order (.error failure) made) (hdeep : failure ≠ .nestedTooDeep) :
    ∃ before visit after, order = before ++ visit :: after ∧ made = before ++ [visit] ∧
      (∀ v ∈ before, IsReadable w base v.name) ∧ Blames w base visit failure := by
  generalize herror : (Except.error failure : Except Failure Unit) = answer at h
  induction h with
  | all => cases herror
  | read hread _ ih =>
    obtain ⟨before, visit, after, rfl, rfl, hall, hblames⟩ := ih herror
    exact ⟨_ :: before, visit, after, rfl, rfl, List.forall_mem_cons.mpr ⟨hread, hall⟩, hblames⟩
  | blamed hblames =>
    cases herror
    exact ⟨[], _, _, rfl, rfl, nofun, hblames⟩
  | tooDeep _ =>
    cases herror
    exact absurd rfl hdeep

end Reads

/-- The files of some visits are read, and their names are marked. -/
def ReadsAndMarks (w : Workspace) (base : Path) (order : List Visit) (loaded : List String)
    (result : Except Failure Unit) (loaded' : List String) : Prop :=
  ∃ made, Reads w base order result made ∧ loaded' = marks made ++ loaded

/-- Steps that each read the files of one visit and those below it read the files of all in
order. -/
lemma readsAndMarks_inOrder {α σ : Type} {step : α → σ → Except Failure Unit × σ}
    (loadedOf : σ → List String) {P : σ → Prop} {R : α → Visit → Prop}
    {next : String → List String} {as : List α} {asked order : List Visit} {s : σ}
    (hstep : ∀ a visit s order, R a visit → P s → Visits next [visit] (loadedOf s) order →
      P (step a s).2 ∧
        ReadsAndMarks w base order (loadedOf s) (step a s).1 (loadedOf (step a s).2))
    (hasked : List.Forall₂ R as asked) (hs : P s) (hvisits : Visits next asked (loadedOf s) order) :
    ReadsAndMarks w base order (loadedOf s) (inOrder step as s).1
      (loadedOf (inOrder step as s).2) := by
  induction hasked generalizing s order with
  | nil =>
    cases hvisits
    exact ⟨[], .all, rfl⟩
  | @cons a visit as asked ha _ ih =>
    obtain ⟨first, rest, rfl, hfirst, hrest⟩ := hvisits.exists_append
    obtain ⟨hm, made, hreads, hloaded⟩ := hstep a visit s first ha hs hfirst
    cases hrun : step a s with
    | mk result m =>
      rw [hrun] at hm hreads hloaded
      cases result with
      | error failure =>
        rw [inOrder_cons_error as hrun]
        exact ⟨made, hreads.append_error, hloaded⟩
      | ok _ =>
        obtain ⟨rfl, -⟩ := hreads.of_ok
        dsimp only at hm hloaded
        rw [← hloaded] at hrest
        obtain ⟨made', hreads', hloaded'⟩ := ih hm hrest
        rw [inOrder_cons_ok as hrun]
        refine ⟨made ++ made', hreads.append hreads', ?_⟩
        rw [hloaded', hloaded]
        simp

/-! ### Loads -/

/-- A view shows what a workspace shows at the paths of all names that a load may come upon, and
nothing but files can make the load fail. -/
structure Settled (scope : Scope) (w : Workspace) (good : String → Prop) : Prop where
  extension : ∃ e, ModuleName.extension scope.options = .ok e
  report : CanReport scope.options scope.reporting
  view : ∀ name, good name → ∀ notes,
    (scope.view notes).read (locate scope.base name) = w.read (locate scope.base name)
  next : ∀ name, good name → ∀ name' ∈ imports w scope.base scope.options name, good name'

variable {scope : Scope} {good : String → Prop} {nesting : Nat} {s : State} {c : String}
  {order : List Visit}

lemma exists_canonical (hextension : ∃ e, ModuleName.extension options = .ok e)
    (name referrer : String) : ∃ c, ModuleName.canonical name (.text referrer) options = .ok c := by
  obtain ⟨e, he⟩ := hextension
  unfold ModuleName.canonical ModuleName.complete
  rw [ModuleName.seenFrom_text, he]
  simp only [bind, Except.bind]
  split
  · exact ⟨_, rfl⟩
  · exact ⟨_, rfl⟩

/-- Where names can be completed, a source imports names. -/
lemma imports_of_sourceAt? (hextension : ∃ e, ModuleName.extension options = .ok e)
    (h : sourceAt? w base name = some source) :
    (Specifier.ofSource source).mapM
        (fun specifier => ModuleName.canonical specifier (.text name) options)
      = .ok (imports w base options name) := by
  unfold imports
  rw [h]
  cases hnames : (Specifier.ofSource source).mapM
      (fun specifier => ModuleName.canonical specifier (.text name) options) with
  | error failure =>
    obtain ⟨specifier, -, hfails⟩ := exists_of_mapM_eq_error hnames
    obtain ⟨c, hc⟩ := exists_canonical hextension specifier name
    cases hfails.symm.trans hc
  | ok names => simp only [hnames]; rfl

/-- A name that has been entered has its source, or its file gets the blame. -/
lemma enter_cases (h : Settled scope w good) (hgood : good c)
    (hshown : ∃ text, referrer.describe = .ok text) (s : State) :
    (∃ failure, Blames w scope.base ⟨c, referrer⟩ failure ∧
        enter scope c referrer s = (.error failure, { s with loaded := c :: s.loaded })) ∨
      ∃ source t, sourceAt? w scope.base c = some source ∧
        enter scope c referrer s = (.ok source, t) ∧ t.loaded = c :: s.loaded := by
  have hview := read_congr c referrer (h.view c hgood s.notes)
  cases hread : read w (locate scope.base c) c referrer with
  | error failure =>
    rw [hread] at hview
    refine Or.inl ⟨failure, blames_of_read hshown hread, ?_⟩
    unfold enter
    simp only [hview]
  | ok source =>
    rw [hread] at hview
    have hentered := enter_of_sourceAt? referrer h.report (sourceAt?_of_read hview)
    have hmarked := enter_loaded scope c referrer s
    refine Or.inr ⟨source, (enter scope c referrer s).2, sourceAt?_of_read hread, ?_, hmarked⟩
    exact Prod.ext hentered rfl

/-- The load of a module reads the files of the visits that its name calls for, in order. -/
theorem loadModule_reads (h : Settled scope w good)
    (hname : ModuleName.canonical name referrer scope.options = .ok c) (hgood : good c)
    (hshown : ∃ text, referrer.describe = .ok text)
    (hvisits : Visits (imports w scope.base scope.options) [⟨c, referrer⟩] s.loaded order) :
    ReadsAndMarks w scope.base order s.loaded (loadModule scope nesting name referrer s).1
      (loadModule scope nesting name referrer s).2.loaded := by
  induction nesting generalizing name referrer c s order with
  | zero => exact ⟨[], .tooDeep _, rfl⟩
  | succ nesting ih =>
    rw [loadModule_succ, hname]
    dsimp only
    cases hvisits with
    | skip hseen hrest =>
      cases hrest
      rw [if_pos (List.contains_iff_mem.mpr hseen)]
      exact ⟨[], .all, rfl⟩
    | @visit _ _ below _ _ hnew hbelow hrest =>
      cases hrest
      rw [if_neg fun hseen => hnew (List.contains_iff_mem.mp hseen), List.append_nil]
      rcases enter_cases h hgood hshown s with ⟨failure, hblames, henter⟩ |
        ⟨source, t, hsource, henter, hloaded⟩
      · rw [henter]
        exact ⟨[_], .blamed hblames, rfl⟩
      · have hnames := imports_of_sourceAt? h.extension hsource
        have hdependencies : dependencyNames scope c (Specifier.ofSource source)
            = .ok (imports w scope.base scope.options c) := hnames
        have hnested : ReadsAndMarks w scope.base below t.loaded
            (inOrder (fun specifier => loadModule scope nesting specifier (.text c))
              (Specifier.ofSource source) t).1
            (inOrder (fun specifier => loadModule scope nesting specifier (.text c))
              (Specifier.ofSource source) t).2.loaded := by
          rw [← hloaded] at hbelow
          refine readsAndMarks_inOrder State.loaded (P := fun _ => True)
            (R := fun specifier v => ModuleName.canonical specifier (.text c) scope.options
              = .ok v.name ∧ v.referrer = .text c ∧ good v.name) ?_ ?_ trivial hbelow
          · rintro specifier ⟨d, _⟩ m order ⟨hd, rfl, hgoodd⟩ - hvisit
            exact ⟨trivial, ih hd hgoodd ⟨c, rfl⟩ hvisit⟩
          · rw [Visit.all, List.forall₂_map_right_iff]
            refine (forall₂_of_mapM_eq_ok hnames (h.next c hgood)).imp ?_
            rintro specifier d ⟨hd, hgoodd⟩
            exact ⟨hd, rfl, hgoodd⟩
        rw [henter]
        unfold andThen afterEntering
        simp only [hdependencies]
        obtain ⟨made, hreads, hmarked⟩ := hnested
        refine ⟨⟨c, referrer⟩ :: made, ?_, ?_⟩
        · refine .read (isReadable_of_sourceAt? hsource) ?_
          revert hreads
          rcases inOrder _ (Specifier.ofSource source) t with ⟨_ | _, n⟩ <;> exact id
        · rw [hloaded] at hmarked
          rw [marks_cons, List.append_assoc, List.singleton_append, ← hmarked]
          rcases inOrder _ (Specifier.ofSource source) t with ⟨_ | _, n⟩ <;> rfl

end Load.Source

/-! ### Compilations -/

namespace Compile

open Load Load.Source

variable {reporting : Bool} {nesting : Nat} {view : View} {w : Workspace} {options : Options}
  {entry : Entry} {entries : List Entry} {base : Path} {memory : List (Value × String)}
  {run : Run (List (Value × String))} {good : String → Prop} {c : String} {asked : List String}
  {order : List Visit}

lemma addEvaluation_of_name {σ : Type} {loader : Loader σ} {run : Run σ}
    (hname : loader.nameOf entry.name options.referrerName options = .ok c)
    (hclosed : run.session.closed = false) :
    (addEvaluation loader options entry run).1 = .ok () := by
  unfold addEvaluation
  split
  · simp [hname, Session.append, hclosed]
  · rfl

lemma loadEntry_reads (h : Settled ⟨view, base, options, reporting⟩ w good)
    (hkind : entry.kind = .module) (hname : nameOf options entry = .ok c) (hgood : good c)
    (hshown : ∃ text, options.referrerName.describe = .ok text) (hopen : IsOpen base run.session)
    (hvisits : Visits (imports w base options) [⟨c, options.referrerName⟩] run.session.loaded
      order) :
    ReadsAndMarks w base order run.session.loaded
      (loadEntry (Source.loader reporting nesting) view options entry run).1
      (loadEntry (Source.loader reporting nesting) view options entry run).2.session.loaded := by
  obtain ⟨rfl, hclosed⟩ := hopen
  have hsettled : Settled (scopeOf reporting view options entry run) w good :=
    ⟨h.extension, h.report, fun name hgood notes => h.view name hgood _, h.next⟩
  have hload : load (scopeOf reporting view options entry run) nesting (callOf options entry)
      (stateOf run) = loadModule (scopeOf reporting view options entry run) nesting entry.name
        options.referrerName (stateOf run) := by
    unfold load
    simp only [callOf, hkind]
  have hreads : ReadsAndMarks w run.session.base order (stateOf run).loaded
      (loadModule (scopeOf reporting view options entry run) nesting entry.name
        options.referrerName (stateOf run)).1
      (loadModule (scopeOf reporting view options entry run) nesting entry.name
        options.referrerName (stateOf run)).2.loaded :=
    loadModule_reads hsettled hname hgood hshown hvisits
  rw [loaded_loadEntry, loadEntry_eq, hload]
  revert hreads
  rcases loadModule (scopeOf reporting view options entry run) nesting _ _ _ with ⟨_ | _, t⟩
  · exact id
  · have hevaluation : (addEvaluation (Source.loader reporting nesting) options entry
        (run.after entry t)).1 = .ok () := addEvaluation_of_name hname hclosed
    dsimp only
    rw [hevaluation]
    exact id

/-- The files of all visits that the entries call for are read, and their names are marked. -/
lemma compileEntries_reads (h : Settled ⟨view, base, options, reporting⟩ w good)
    (hmodules : ∀ entry ∈ entries, entry.kind = .module)
    (hnames : entries.mapM (nameOf options) = .ok asked) (hgood : ∀ name ∈ asked, good name)
    (hshown : ∃ text, options.referrerName.describe = .ok text)
    (hvisits : Visits (imports w base options) (Visit.all asked options.referrerName) [] order) :
    ReadsAndMarks w base order []
      ((compileEntries (Source.loader reporting nesting) view entries options base memory).1.map
        fun _ => ())
      (compileEntries (Source.loader reporting nesting) view entries options base
        memory).2.session.loaded := by
  have hall : ReadsAndMarks w base order [] (inOrder (loadEntry (Source.loader reporting nesting)
      view options) entries (newRun base memory)).1 (inOrder (loadEntry (Source.loader reporting
        nesting) view options) entries (newRun base memory)).2.session.loaded := by
    have hasked : List.Forall₂ (fun entry visit => entry.kind = .module ∧
        nameOf options entry = .ok visit.name ∧ visit.referrer = options.referrerName ∧
          good visit.name) entries (Visit.all asked options.referrerName) := by
      rw [Visit.all, List.forall₂_map_right_iff]
      refine ((List.forall₂_and_left _ _).mpr
        ⟨hmodules, forall₂_of_mapM_eq_ok hnames hgood⟩).imp ?_
      rintro entry name ⟨hkind, hname, hgood⟩
      exact ⟨hkind, hname, rfl, hgood⟩
    refine readsAndMarks_inOrder (fun run : Run (List (Value × String)) => run.session.loaded)
      (P := fun run => IsOpen base run.session) ?_ hasked ⟨rfl, rfl⟩ hvisits
    rintro entry ⟨name, _⟩ run order ⟨hkind, hname, rfl, hgood⟩ hopen hvisit
    exact ⟨loadEntry_isOpen _ view options entry hopen,
      loadEntry_reads h hkind hname hgood hshown hopen hvisit⟩
  revert hall
  cases hrun : inOrder (loadEntry (Source.loader reporting nesting) view options) entries
      (newRun base memory) with
  | mk result run =>
    cases result with
    | error failure =>
      rw [compileEntries_of_inOrder_error hrun]
      exact id
    | ok _ =>
      rw [compileEntries_of_inOrder hrun]
      exact id

/-- No load is nested too deep where more may be nested than there are names to be loaded. -/
lemma compileEntries_ne_nestedTooDeep {names : Set String} (hfinite : names.Finite)
    (hnesting : names.ncard < nesting)
    (hmarked : ∀ name ∈ (compileEntries (Source.loader reporting nesting) view entries options base
      memory).2.session.loaded, name ∈ names) :
    (compileEntries (Source.loader reporting nesting) view entries options base memory).1
      ≠ .error .nestedTooDeep := by
  intro hdeep
  obtain ⟨trail, rfl, hnodup, htrail⟩ := compileEntries_nestedTooDeep hdeep
  have hsubset : trail.toFinset ⊆ hfinite.toFinset := by
    intro name hname
    rw [List.mem_toFinset] at hname
    exact hfinite.mem_toFinset.mpr (hmarked name (htrail name hname).1)
  have hcard := Finset.card_le_card hsubset
  rw [List.toFinset_card_of_nodup hnodup, ← Set.ncard_eq_toFinset_card names hfinite] at hcard
  exact Nat.not_le.mpr hnesting hcard

/-- A compilation that reads files in the order of a depth-first search and blames the first that
cannot be read; `made` are the visits whose files it has tried to read. -/
structure BlamesFirst (w : Workspace) (base : Path) (options : Options) (asked : List String)
    (order made : List Visit) (result : Except Failure (Option Tree)) : Prop where
  visits_iff : ∀ order', Visits (imports w base options) (Visit.all asked options.referrerName) []
    order' ↔ order' = order
  nodup : (marks order).Nodup
  mem_marks_iff : ∀ name,
    name ∈ marks order ↔ IsReachable (imports w base options) asked name
  made_prefix : made <+: order
  success : ∀ answer, result = .ok answer →
    made = order ∧ ∀ visit ∈ order, IsReadable w base visit.name
  blame : ∀ failure, result = .error failure →
    ∃ before visit after, order = before ++ visit :: after ∧ made = before ++ [visit] ∧
      (∀ v ∈ before, IsReadable w base v.name) ∧ Blames w base visit failure

lemma blamesFirst_of_reads {result : Except Failure (Option Tree)} {made : List Visit}
    (hvisits : Visits (imports w base options) (Visit.all asked options.referrerName) [] order)
    (hreads : Reads w base order (result.map fun _ => ()) made)
    (hends : result ≠ .error .nestedTooDeep) :
    BlamesFirst w base options asked order made result where
  visits_iff order' := by
    constructor
    · exact fun h => h.unique hvisits
    · rintro rfl
      exact hvisits
  nodup := by simpa using hvisits.nodup List.nodup_nil
  mem_marks_iff name := by rw [hvisits.mem_marks_iff, map_name_all]
  made_prefix := hreads.made_prefix
  success := by
    rintro answer rfl
    exact hreads.of_ok
  blame := by
    rintro failure rfl
    exact hreads.of_error fun hdeep => hends (congrArg Except.error hdeep)

/-- A compilation that blames the first name that cannot be read succeeds exactly if all can be
read. -/
lemma BlamesFirst.exists_ok_iff {result : Except Failure (Option Tree)} {made : List Visit}
    (h : BlamesFirst w base options asked order made result) :
    (∃ answer, result = .ok answer) ↔
      ∀ name, IsReachable (imports w base options) asked name → IsReadable w base name := by
  constructor
  · rintro ⟨answer, hanswer⟩ name hname
    obtain ⟨visit, hvisit, rfl⟩ := mem_marks.mp ((h.mem_marks_iff name).mpr hname)
    exact (h.success answer hanswer).2 visit hvisit
  · intro hall
    cases result with
    | ok answer => exact ⟨answer, rfl⟩
    | error failure =>
      exfalso
      obtain ⟨before, visit, after, hsplit, -, -, hblames⟩ := h.blame failure rfl
      have hvisited : visit.name ∈ marks order := mem_marks.mpr ⟨visit, by simp [hsplit], rfl⟩
      exact hblames.not_isReadable (hall _ ((h.mem_marks_iff _).mp hvisited))

/-- A compilation of modules reads the files of the names that can be reached in the order of a
depth-first search. It succeeds exactly if all of them can be read, and otherwise blames the first
that cannot. It does not depend on the files behind that one, nor on the limit to nested loads, if
that is higher than the number of names. -/
theorem compileEntries_blamesFirst (hmodules : ∀ entry ∈ entries, entry.kind = .module)
    (hnames : entries.mapM (nameOf options) = .ok asked)
    (hextension : ∃ e, ModuleName.extension options = .ok e)
    (hshown : ∃ text, options.referrerName.describe = .ok text)
    (hreport : CanReport options reporting)
    (hfinite : {name | IsReachable (imports w base options) asked name}.Finite)
    (hnesting : {name | IsReachable (imports w base options) asked name}.ncard < nesting)
    (hview : ∀ name, IsReachable (imports w base options) asked name → ∀ notes,
      (view notes).read (locate base name) = w.read (locate base name)) :
    ∃ order made,
      BlamesFirst w base options asked order made
        (compileEntries (Source.loader reporting nesting) view entries options base memory).1 ∧
      (compileEntries (Source.loader reporting nesting) view entries options base
        memory).2.session.loaded = marks made ∧
      ((∃ answer, (compileEntries (Source.loader reporting nesting) view entries options base
          memory).1 = .ok answer) ↔
        ∀ name, IsReachable (imports w base options) asked name → IsReadable w base name) ∧
      (∀ deeper, nesting ≤ deeper →
        compileEntries (Source.loader reporting deeper) view entries options base memory
          = compileEntries (Source.loader reporting nesting) view entries options base memory) ∧
      ∀ (view' : View) (memory' : List (Value × String)),
        (∀ visit ∈ made, ∀ notes, (view' notes).read (locate base visit.name)
          = (view notes).read (locate base visit.name)) →
        (compileEntries (Source.loader reporting nesting) view' entries options base memory').1
          = (compileEntries (Source.loader reporting nesting) view entries options base
            memory).1 := by
  have hsettled : Settled ⟨view, base, options, reporting⟩ w
      (IsReachable (imports w base options) asked) :=
    ⟨hextension, hreport, hview, fun name hname _ hnext => hname.tail hnext⟩
  obtain ⟨order, hvisits⟩ : ∃ order, Visits (imports w base options)
      (Visit.all asked options.referrerName) [] order := by
    rw [← map_name_all asked options.referrerName] at hfinite
    exact exists_visits hfinite
  have hcompiled : ReadsAndMarks w base order []
      ((compileEntries (Source.loader reporting nesting) view entries options base memory).1.map
        fun _ => ())
      (compileEntries (Source.loader reporting nesting) view entries options base
        memory).2.session.loaded :=
    compileEntries_reads hsettled hmodules hnames (fun _ hname => .of_mem hname) hshown hvisits
  obtain ⟨made, hreads, hloaded⟩ := hcompiled
  rw [List.append_nil] at hloaded
  -- what has been marked can be reached
  have hgood : ∀ name ∈ (compileEntries (Source.loader reporting nesting) view entries options base
      memory).2.session.loaded, IsReachable (imports w base options) asked name := by
    intro name hname
    rw [hloaded] at hname
    obtain ⟨visit, hvisit, rfl⟩ := mem_marks.mp hname
    have hreachable := hvisits.isReachable_of_mem (hreads.made_prefix.subset hvisit)
    rwa [map_name_all] at hreachable
  have hends := compileEntries_ne_nestedTooDeep hfinite hnesting hgood
  have hblames : BlamesFirst w base options asked order made
      (compileEntries (Source.loader reporting nesting) view entries options base memory).1 :=
    blamesFirst_of_reads hvisits hreads hends
  refine ⟨order, made, hblames, hloaded, hblames.exists_ok_iff,
    fun _ hle => compileEntries_of_le hle hends, ?_⟩
  intro view' memory' hsame
  refine (compileEntries_alike memory' ?_).1
  intro name hname notes
  rw [hloaded] at hname
  obtain ⟨visit, hvisit, rfl⟩ := mem_marks.mp hname
  exact hsame visit hvisit notes

/-- A project without `b.js`, which `main.js` imports between two other modules. -/
def brokenProject : Workspace where
  files := ⟨[
    (["main.js"], .file "import \"./a.js\";\nimport \"./b.js\";\nimport \"./d.js\";\n".toUTF8),
    (["a.js"], .file "import \"./c.js\";\n".toUTF8),
    (["c.js"], .file "var c;\n".toUTF8)]⟩
  cwd := some []
  start := ⟨.root, []⟩

/-- The compilation of this project. -/
def compileBroken : Except Failure (Option Tree) × Run (List (Value × String)) :=
  compileEntries (Source.loader false 8) (fun _ => brokenProject) [⟨"main.js", .module⟩] {}
    ⟨.root, []⟩ []

theorem blamesFirst_brokenProject :
    (∀ entry ∈ ([⟨"main.js", .module⟩] : List Entry), entry.kind = .module) ∧
    ([⟨"main.js", .module⟩] : List Entry).mapM (nameOf {}) = .ok ["main.js"] ∧
    (∃ e, ModuleName.extension {} = .ok e) ∧
    (∃ text, ({} : Options).referrerName.describe = .ok text) ∧ CanReport {} false ∧
    {name | IsReachable (imports brokenProject ⟨.root, []⟩ {}) ["main.js"] name}.Finite ∧
    {name | IsReachable (imports brokenProject ⟨.root, []⟩ {}) ["main.js"] name}.ncard < 8 ∧
    ∃ order made, BlamesFirst brokenProject ⟨.root, []⟩ {} ["main.js"] order made
      compileBroken.1 := by
  have hmodules : ∀ entry ∈ ([⟨"main.js", .module⟩] : List Entry), entry.kind = .module := by simp
  have hnames : ([⟨"main.js", .module⟩] : List Entry).mapM (nameOf {}) = .ok ["main.js"] := rfl
  have hextension : ∃ e, ModuleName.extension {} = .ok e := ⟨_, rfl⟩
  have hshown : ∃ text, ({} : Options).referrerName.describe = .ok text := ⟨_, rfl⟩
  have hreport : CanReport {} false := Or.inl rfl
  have hreached : {name | IsReachable (imports brokenProject ⟨.root, []⟩ {}) ["main.js"] name}
      ⊆ {name | name ∈ ["main.js", "a.js", "b.js", "c.js", "d.js"]} :=
    isReachable_subset (by simp) (by decide +kernel)
  have hfinite :
      {name | IsReachable (imports brokenProject ⟨.root, []⟩ {}) ["main.js"] name}.Finite :=
    (List.finite_toSet _).subset hreached
  have hnesting :
      {name | IsReachable (imports brokenProject ⟨.root, []⟩ {}) ["main.js"] name}.ncard < 8 := by
    apply (Set.ncard_le_ncard hreached (List.finite_toSet _)).trans_lt
    rw [← List.coe_toFinset, Set.ncard_coe_finset]
    decide
  obtain ⟨order, made, hblames, -⟩ := compileEntries_blamesFirst hmodules hnames hextension hshown
    hreport hfinite hnesting fun _ _ _ => rfl
  exact ⟨hmodules, hnames, hextension, hshown, hreport, hfinite, hnesting, order, made, hblames⟩

example : compileBroken.2.session.loaded = ["b.js", "c.js", "a.js", "main.js"] := by
  decide +kernel

/-! ### Other ends -/

/-- Whether a compilation succeeds or fails because of a file: it is missing, not UTF-8, or there is
an error of the file tree. -/
def isByFile : Except Failure (Option Tree) → Bool
  | .ok _ | .error (.resolution ..) | .error (.compile ..) | .error (.file _) => true
  | .error _ => false

/-- A project with one file, which imports a name that holds a null character. -/
def nullProject : Workspace where
  files := ⟨[(["main.js"], .file "import \"./a\x00b\";\n".toUTF8)]⟩
  cwd := some []
  start := ⟨.root, []⟩

/-- A compilation may also fail because of a null character in a name, although only finitely many
names can be reached. -/
theorem not_always_byFile :
    {name | IsReachable (imports nullProject ⟨.root, []⟩ {}) ["main.js"] name}.Finite ∧
      isByFile (compileEntries (Source.loader false 8) (fun _ => nullProject) [⟨"main.js", .module⟩]
        {} ⟨.root, []⟩ []).1 = false := by
  refine ⟨?_, by decide +kernel⟩
  apply finite_isReachable ["main.js", "a\x00b.js"] (by simp)
  decide +kernel

end Compile

end Bundler
