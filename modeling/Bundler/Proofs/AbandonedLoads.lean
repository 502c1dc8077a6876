import Bundler.Proofs.FailedLoads
import Bundler.Proofs.Nesting

/-!
# Names that failed loads leave behind

A name is marked before its file is read and keeps the mark if its load fails. A load that fails may
have added units on the way; the names that it leaves without one are a chain that begins with the
name that was asked for, each importing the next. No later load tries them again: it succeeds and
adds nothing.
-/

namespace Bundler

open Bundler.Units

/-! ### What a failed load leaves -/

/-- What a load of the names `asked` adds if it fails, and the names `left` without units. Of the
names asked for, those in front of the one that fails have been loaded. -/
inductive Breaks (imports : String → String → Prop) :
    (asked old : List String) → (units : List CompiledUnit) → (left new : List String) → Prop where
  /-- Nothing has begun. -/
  | nothing (asked old : List String) : Breaks imports asked old [] [] old
  /-- A new name is marked, and of its dependencies those are asked for that come up to the one that
  fails. -/
  | entered {name : String} {dependencies old left new : List String} {units : List CompiledUnit}
      (fresh : name ∉ old) (himports : ∀ dependency ∈ dependencies, imports name dependency)
      (h : Breaks imports dependencies (name :: old) units left new) :
      Breaks imports [name] old units (name :: left) new
  | behind {asked asked' old mid left new : List String} {units units' : List CompiledUnit}
      (h : Adds (fun _ => True) asked old units mid)
      (h' : Breaks imports asked' mid units' left new) :
      Breaks imports (asked ++ asked') old (units ++ units') left new

namespace Breaks

variable {imports : String → String → Prop} {asked old left new : List String}
  {units : List CompiledUnit}

/-- The names that are marked are those marked before, those with a new unit and those left. -/
lemma mem_new_iff (h : Breaks imports asked old units left new) (name : String) :
    name ∈ new ↔ name ∈ old ∨ name ∈ names units ∨ name ∈ left := by
  induction h with
  | nothing asked old => simp
  | entered fresh _ _ ih =>
    simp only [ih, List.mem_cons]
    tauto
  | behind h _ ih =>
    simp only [ih, h.mem_new_iff, names_append, List.mem_append]
    tauto

lemma fresh_of_mem_names (h : Breaks imports asked old units left new) :
    ∀ name ∈ names units, name ∉ old := by
  induction h with
  | nothing asked old => simp
  | entered fresh _ _ ih =>
    intro name hname hold
    exact ih name hname (List.mem_cons_of_mem _ hold)
  | behind h _ ih =>
    intro name hname hold
    rw [names_append, List.mem_append] at hname
    rcases hname with hname | hname
    · exact h.fresh_of_mem name hname hold
    · exact ih name hname (h.old_subset hold)

/-- A name that is left was new and has no unit. -/
lemma fresh_of_mem_left (h : Breaks imports asked old units left new) :
    ∀ name ∈ left, name ∉ old ∧ name ∉ names units := by
  induction h with
  | nothing asked old => simp
  | entered fresh _ h ih =>
    intro name hname
    rcases List.mem_cons.mp hname with rfl | hname
    · exact ⟨fresh, fun hunit => h.fresh_of_mem_names name hunit List.mem_cons_self⟩
    · obtain ⟨hold, hunit⟩ := ih name hname
      exact ⟨fun hmem => hold (List.mem_cons_of_mem _ hmem), hunit⟩
  | behind h _ ih =>
    intro name hname
    obtain ⟨hmid, hunit⟩ := ih name hname
    rw [h.mem_new_iff, not_or] at hmid
    refine ⟨hmid.1, ?_⟩
    rw [names_append, List.mem_append, not_or]
    exact ⟨hmid.2, hunit⟩

lemma nodup_left (h : Breaks imports asked old units left new) : left.Nodup := by
  induction h with
  | nothing asked old => exact List.nodup_nil
  | entered fresh _ h ih =>
    refine List.nodup_cons.mpr ⟨?_, ih⟩
    intro hmem
    exact (h.fresh_of_mem_left _ hmem).1 List.mem_cons_self
  | behind _ _ ih => exact ih

/-- The names that are left start with one that was asked for, and each imports the next. -/
lemma isChain_left (h : Breaks imports asked old units left new) :
    (∀ name ∈ left.head?, name ∈ asked) ∧ left.IsChain imports := by
  induction h with
  | nothing asked old => exact ⟨nofun, .nil⟩
  | @entered name _ _ left _ _ _ himports _ ih =>
    obtain ⟨hhead, hchain⟩ := ih
    refine ⟨?_, ?_⟩
    · intro name' hname'
      obtain rfl : name = name' := by simpa using hname'
      exact List.mem_singleton_self _
    · rw [List.isChain_cons]
      exact ⟨fun next hnext => himports next (hhead next hnext), hchain⟩
  | behind _ _ ih =>
    obtain ⟨hhead, hchain⟩ := ih
    exact ⟨fun name hname => List.mem_append_right _ (hhead name hname), hchain⟩

end Breaks

/-! ### Loads that fail -/

/-- The images of two lists put together are those of the first and those of the second. -/
lemma mapM_append_eq_ok {α β ε : Type} {f : α → Except ε β} {as as' : List α} {bs : List β}
    (h : (as ++ as').mapM f = .ok bs) :
    ∃ front back, as.mapM f = .ok front ∧ as'.mapM f = .ok back ∧ bs = front ++ back := by
  induction as generalizing bs with
  | nil => exact ⟨[], bs, rfl, h, rfl⟩
  | cons a as ih =>
    obtain ⟨b, rest, hfirst, hrest, rfl⟩ := mapM_cons_eq_ok_iff.mp h
    obtain ⟨front, back, hfront, hback, rfl⟩ := ih hrest
    exact ⟨b :: front, back, mapM_cons_eq_ok_iff.mpr ⟨b, front, hfirst, hfront, rfl⟩, hback, rfl⟩

namespace Load.Source

variable {scope : Scope} {s t : State} {name source : String} {referrer : Value}
  {failure : Failure} {nesting : Nat}

/-- What a failed load of a name makes of the state of the loader; the name itself is left, unless
it is not a name or the load is nested too deep. -/
def BreaksOff (scope : Scope) (nesting : Nat) (name : String) (referrer : Value) (s t : State) :
    Prop :=
  ∃ asked units left, (∀ c ∈ asked, ModuleName.canonical name referrer scope.options = .ok c) ∧
    (∀ c, ModuleName.canonical name referrer scope.options = .ok c → nesting ≠ 0 → c ∈ left) ∧
    t.added = s.added ++ units.map .compiled ∧
    Breaks (Imports scope) asked s.loaded units left t.loaded

lemma BreaksOff.refl (s : State)
    (h : ∀ c, ModuleName.canonical name referrer scope.options = .ok c → nesting = 0) :
    BreaksOff scope nesting name referrer s s :=
  ⟨[], [], [], nofun, fun c hc hne => absurd (h c hc) hne, by simp, .nothing _ _⟩

lemma enter_added (scope : Scope) (name : String) (referrer : Value) (s : State) :
    (enter scope name referrer s).2.added = s.added := by
  unfold enter
  dsimp only
  split
  · rfl
  · exact (report_state _ _ _).2.1

/-- A name that was entered, and that is all. -/
lemma BreaksOff.of_enter {canonical : String} {result : Except Failure String}
    (hcanonical : ModuleName.canonical name referrer scope.options = .ok canonical)
    (hfresh : canonical ∉ s.loaded) (henter : enter scope canonical referrer s = (result, t)) :
    BreaksOff scope nesting name referrer s t := by
  have hloaded := enter_loaded scope canonical referrer s
  have hadded := enter_added scope canonical referrer s
  rw [henter] at hloaded hadded
  refine ⟨[canonical], [], [canonical], ?_, ?_, by simpa using hadded, ?_⟩
  · intro c hc
    obtain rfl : c = canonical := List.mem_singleton.mp hc
    exact hcanonical
  · intro c hc _
    obtain rfl : canonical = c := Except.ok.inj (hcanonical.symm.trans hc)
    exact List.mem_singleton_self _
  · rw [hloaded]
    have hnone : ∀ dependency ∈ [], Imports scope canonical dependency := nofun
    exact .entered hfresh hnone (.nothing _ _)

lemma loadModule_breaksOff (h : loadModule scope nesting name referrer s = (.error failure, t)) :
    BreaksOff scope nesting name referrer s t := by
  induction nesting generalizing name referrer s t with
  | zero =>
    cases h
    exact .refl _ fun _ _ => rfl
  | succ nesting ih =>
    rcases loadModule_error h with ⟨hnone, rfl⟩ | ⟨canonical, hcanonical, hfresh, hrest⟩
    · exact .refl _ fun c hc => nomatch hc.symm.trans hnone
    rcases hrest with henter | ⟨source, s₁, henter, ⟨-, rfl⟩ | ⟨dependencies, hnames, hnested⟩⟩
    · exact .of_enter hcanonical hfresh henter
    · exact .of_enter hcanonical hfresh henter
    · obtain ⟨before, specifier, after, m, hsplit, hbefore, hload⟩ :=
        exists_of_inOrder_eq_error hnested
      obtain ⟨hloaded, hadded, -, hsource⟩ := enter_ok henter
      -- the dependencies in front of the one that fails have been loaded
      unfold dependencyNames at hnames
      rw [hsplit] at hnames
      obtain ⟨front, _, hfront, -, -⟩ := mapM_append_eq_ok hnames
      obtain ⟨-, units, hunits, hadds⟩ := Extends.of_inOrder
        (fun specifier => ModuleName.canonical specifier (.text canonical) scope.options)
        (fun _ _ _ => loadModule_extends) before hfront hbefore
      obtain ⟨asked, units', left, hasked, -, hunits', hbreaks⟩ := ih hload
      have himports : ∀ dependency ∈ front ++ asked, Imports scope canonical dependency := by
        intro dependency hdependency
        refine ⟨s.notes, source, hsource, ?_⟩
        rw [hsplit]
        rcases List.mem_append.mp hdependency with hmem | hmem
        · obtain ⟨specifier', hspecifier, hname⟩ := (mem_of_mapM_eq_ok hfront).2 dependency hmem
          exact ⟨specifier', List.mem_append_left _ hspecifier, hname⟩
        · exact ⟨specifier, by simp, hasked dependency hmem⟩
      refine ⟨[canonical], units ++ units', canonical :: left, ?_, ?_, ?_, ?_⟩
      · intro c hc
        obtain rfl : c = canonical := List.mem_singleton.mp hc
        exact hcanonical
      · intro c hc _
        obtain rfl : canonical = c := Except.ok.inj (hcanonical.symm.trans hc)
        exact List.mem_cons_self
      · rw [hunits', hunits, hadded, List.map_append, List.append_assoc]
      · rw [hloaded] at hadds
        exact .entered hfresh himports (.behind (hadds.mono fun _ _ => trivial) hbreaks)

lemma loadScript_breaksOff (h : loadScript scope name referrer s = (.error failure, t)) :
    BreaksOff scope nesting name referrer s t := by
  rcases loadScript_error h with ⟨hnone, rfl⟩ | ⟨canonical, hcanonical, hfresh, henter⟩
  · exact .refl _ fun c hc => nomatch hc.symm.trans hnone
  · exact .of_enter hcanonical hfresh henter

lemma load_breaksOff {call : Call} (h : load scope nesting call s = (.error failure, t)) :
    BreaksOff scope nesting call.name call.referrer s t := by
  unfold load at h
  split at h
  · exact loadModule_breaksOff h
  · exact loadScript_breaksOff h

/-- A name that is marked is not loaded again. -/
lemma load_of_mem (scope : Scope) (call : Call) {canonical : String} (hnesting : nesting ≠ 0)
    (hcanonical : ModuleName.canonical call.name call.referrer scope.options = .ok canonical)
    (hmem : canonical ∈ s.loaded) : load scope nesting call s = (.ok (), s) := by
  have hcontains : s.loaded.contains canonical = true := List.contains_iff_mem.mpr hmem
  obtain ⟨nesting, rfl⟩ := Nat.exists_eq_succ_of_ne_zero hnesting
  unfold load
  split
  · simp only [loadModule, hcanonical, hcontains, if_true]
  · simp only [loadScript, hcanonical, hcontains, if_true]

end Load.Source

/-! ### Calls one after another -/

namespace Load

variable {σ : Type}

/-- The names that a reply leaves marked without a unit, if the call has failed. -/
def Reply.left (session : Session) (reply : Reply σ) : List String :=
  match reply.result with
  | .ok () => []
  | .error _ => reply.loaded.filter fun name =>
      !session.loaded.contains name && !(names (Element.units reply.added)).contains name

end Load

namespace Compile

open Load Load.Source

variable {σ : Type}

/-- The reply to a call that comes next in a session. -/
def Run.reply (loader : Loader σ) (view : View) (run : Run σ) (call : Call) : Reply σ :=
  loader.load (fun notes => view (run.notes ++ notes)) run.session run.memory call

/-- The session after some calls, whatever came of them. -/
def Run.callAll (loader : Loader σ) (view : View) (run : Run σ) : List Call → Run σ
  | [] => run
  | call :: calls => (run.take (run.reply loader view call)).callAll loader view calls

/-- The names that calls which failed have left marked without a unit. -/
def Run.leftBehind (loader : Loader σ) (view : View) (run : Run σ) : List Call → List String
  | [] => []
  | call :: calls =>
    (run.reply loader view call).left run.session
      ++ (run.take (run.reply loader view call)).leftBehind loader view calls

/-- What stays the same during a call. -/
def Run.scope (reporting : Bool) (view : View) (call : Call) (run : Run σ) : Scope :=
  ⟨fun notes => view (run.notes ++ notes), run.session.base, call.options, reporting⟩

/-- The state of the loader at the beginning of a call. -/
def Run.state (run : Run (List (Value × String))) : State :=
  { loaded := run.session.loaded, reports := run.memory }

section Reply

variable {reporting : Bool} {nesting : Nat} {view : View} {call : Call}
  {run : Run (List (Value × String))} {reply : Reply (List (Value × String))} {failure : Failure}

/-- The reply tells what a load makes of the state. -/
lemma load_of_reply (hreply : run.reply (Source.loader reporting nesting) view call = reply) :
    load (run.scope reporting view call) nesting call run.state
      = (reply.result, ⟨reply.loaded, reply.added, reply.memory, reply.notes⟩) := by
  rw [← hreply]
  rfl

/-- A call that succeeds adds units for the names that it marks. -/
lemma exists_adds (hreply : run.reply (Source.loader reporting nesting) view call = reply)
    (h : reply.result = .ok ()) :
    ∃ name made units, ModuleName.canonical call.name call.referrer call.options = .ok name ∧
      reply.added = units.map .compiled ∧
      Adds made [name] run.session.loaded units reply.loaded := by
  have hload := load_of_reply hreply
  rw [h] at hload
  obtain ⟨name, hname, -, units, hadded, hadds⟩ := load_extends hload
  exact ⟨name, _, units, hname, hadded, hadds⟩

/-- A call that fails leaves a chain of names behind, each importing the next. -/
lemma exists_breaks (hreply : run.reply (Source.loader reporting nesting) view call = reply)
    (h : reply.result = .error failure) :
    ∃ asked units chain,
      (∀ c ∈ asked, ModuleName.canonical call.name call.referrer call.options = .ok c) ∧
      (∀ c, ModuleName.canonical call.name call.referrer call.options = .ok c → nesting ≠ 0 →
        c ∈ chain) ∧
      reply.added = units.map .compiled ∧
      Breaks (Imports (run.scope reporting view call)) asked run.session.loaded units chain
        reply.loaded ∧
      ∀ name, name ∈ reply.left run.session ↔ name ∈ chain := by
  have hload := load_of_reply hreply
  rw [h] at hload
  obtain ⟨asked, units, chain, hasked, hown, hadded, hbreaks⟩ := load_breaksOff hload
  simp only [Run.state, List.nil_append] at hadded hbreaks
  refine ⟨asked, units, chain, hasked, hown, hadded, hbreaks, ?_⟩
  intro name
  have hnames : names (Element.units reply.added) = names units := by
    rw [hadded, Element.units_map_compiled]
  have hfresh := hbreaks.fresh_of_mem_left name
  rw [Reply.left, h]
  simp only [List.mem_filter, Bool.and_eq_true, Bool.not_eq_true', List.contains_eq_mem,
    decide_eq_false_iff_not, hnames, hbreaks.mem_new_iff]
  tauto

end Reply

/-! ### The marks of a session -/

/-- The names marked in a session are those of its units and, apart from these, those `left`. -/
structure IsAccounted (left : List String) (session : Session) : Prop where
  marked : ∀ name, name ∈ session.loaded ↔
    name ∈ names (Element.units session.elements) ∨ name ∈ left
  apart : ∀ name ∈ left, name ∉ names (Element.units session.elements)

namespace IsAccounted

variable {left more chain asked : List String} {session session' : Session}
  {units : List CompiledUnit}

/-- A load that succeeds leaves nothing else behind. -/
lemma of_adds {made : CompiledUnit → Prop} (h : IsAccounted left session)
    (helements : session'.elements = session.elements ++ units.map .compiled)
    (hadds : Adds made asked session.loaded units session'.loaded) :
    IsAccounted left session' := by
  refine ⟨?_, ?_⟩
  · intro name
    simp only [helements, Element.units_append, Element.units_map_compiled, names_append,
      List.mem_append, hadds.mem_new_iff, h.marked]
    tauto
  · intro name hname
    simp only [helements, Element.units_append, Element.units_map_compiled, names_append,
      List.mem_append, not_or]
    refine ⟨h.apart name hname, fun hunit => hadds.fresh_of_mem name hunit ?_⟩
    exact (h.marked name).mpr (Or.inr hname)

/-- A load that fails leaves its chain behind as well. -/
lemma of_breaks {imports : String → String → Prop} (h : IsAccounted left session)
    (helements : session'.elements = session.elements ++ units.map .compiled)
    (hbreaks : Breaks imports asked session.loaded units chain session'.loaded)
    (hmore : ∀ name, name ∈ more ↔ name ∈ chain) : IsAccounted (left ++ more) session' := by
  refine ⟨?_, ?_⟩
  · intro name
    simp only [helements, Element.units_append, Element.units_map_compiled, names_append,
      List.mem_append, hbreaks.mem_new_iff, h.marked, hmore]
    tauto
  · intro name hname
    simp only [helements, Element.units_append, Element.units_map_compiled, names_append,
      List.mem_append, not_or, hmore] at hname ⊢
    rcases hname with hname | hname
    · refine ⟨h.apart name hname, fun hunit => hbreaks.fresh_of_mem_names name hunit ?_⟩
      exact (h.marked name).mpr (Or.inr hname)
    · obtain ⟨hold, hunit⟩ := hbreaks.fresh_of_mem_left name hname
      exact ⟨fun hmem => hold ((h.marked name).mpr (Or.inl hmem)), hunit⟩

variable {run : Run (List (Value × String))}

/-- The names of a session are accounted for after each call. -/
lemma take (h : IsAccounted left run.session) (reporting : Bool) (nesting : Nat) (view : View)
    (call : Call) : IsAccounted
      (left ++ (run.reply (Source.loader reporting nesting) view call).left run.session)
      (run.take (run.reply (Source.loader reporting nesting) view call)).session := by
  generalize hreply : run.reply (Source.loader reporting nesting) view call = reply
  have helements : (run.take reply).session.elements = run.session.elements ++ reply.added := rfl
  cases hresult : reply.result with
  | ok _ =>
    obtain ⟨_, _, units, -, hadded, hadds⟩ := exists_adds hreply hresult
    rw [hadded] at helements
    have hnone : reply.left run.session = [] := by rw [Reply.left, hresult]
    rw [hnone, List.append_nil]
    exact h.of_adds helements hadds
  | error failure =>
    obtain ⟨_, units, chain, -, -, hadded, hbreaks, hchain⟩ := exists_breaks hreply hresult
    rw [hadded] at helements
    exact h.of_breaks helements hbreaks hchain

lemma callAll (h : IsAccounted left run.session) (reporting : Bool) (nesting : Nat) (view : View)
    (calls : List Call) :
    IsAccounted (left ++ run.leftBehind (Source.loader reporting nesting) view calls)
      (run.callAll (Source.loader reporting nesting) view calls).session := by
  induction calls generalizing left run with
  | nil => simpa [Run.leftBehind, Run.callAll] using h
  | cons call calls ih =>
    rw [Run.leftBehind, Run.callAll, ← List.append_assoc]
    exact ih (h.take reporting nesting view call)

end IsAccounted

/-- A call that succeeds has a unit of its name in the session unless the name was left behind by a
call that failed before. Such a name stays without one: a call for it succeeds and adds nothing. A
call that fails leaves behind a chain of names that begins with its own, each importing the next. -/
theorem loads_unless_leftBehind (reporting : Bool) (nesting : Nat) (view : View) (base : Path)
    (memory : List (Value × String)) (calls : List Call) (call : Call) :
    let loader := Source.loader reporting nesting
    let run := (newRun base memory).callAll loader view calls
    let left := (newRun base memory).leftBehind loader view calls
    let reply := run.reply loader view call
    (reply.result = .ok () →
      ∃ name, ModuleName.canonical call.name call.referrer call.options = .ok name ∧
        ((∃ unit ∈ Element.units (run.take reply).session.elements, unit.name = name)
          ↔ name ∉ left)) ∧
    (∀ name ∈ left, ModuleName.canonical call.name call.referrer call.options = .ok name →
      nesting ≠ 0 → reply.result = .ok () ∧ reply.added = []) ∧
    ∀ failure, reply.result = .error failure → ∃ chain : List String,
      (∀ name, name ∈ reply.left run.session ↔ name ∈ chain) ∧ chain.Nodup ∧
      (∀ name ∈ chain.head?,
        ModuleName.canonical call.name call.referrer call.options = .ok name) ∧
      (∀ name, ModuleName.canonical call.name call.referrer call.options = .ok name →
        nesting ≠ 0 → name ∈ chain) ∧
      chain.IsChain (Imports (run.scope reporting view call)) := by
  intro loader run left reply
  have hnew : IsAccounted [] (newRun base memory).session := ⟨by simp [newRun], nofun⟩
  have hrun : IsAccounted left run.session := hnew.callAll reporting nesting view calls
  refine ⟨?_, ?_, ?_⟩
  · intro hresult
    obtain ⟨name, made, units, hname, -, hadds⟩ := exists_adds rfl hresult
    have hnone : reply.left run.session = [] := by rw [Reply.left, hresult]
    have htaken : IsAccounted left (run.take reply).session := by
      have h := hrun.take reporting nesting view call
      rwa [hnone, List.append_nil] at h
    have hmarked : name ∈ (run.take reply).session.loaded :=
      hadds.asked_subset (List.mem_singleton_self _)
    refine ⟨name, hname, ?_⟩
    rw [← mem_names]
    constructor
    · intro hunit hleft
      exact htaken.apart name hleft hunit
    · intro hleft
      exact ((htaken.marked name).mp hmarked).resolve_right hleft
  · intro name hleft hname hnesting
    have hmarked : name ∈ run.state.loaded := (hrun.marked name).mpr (Or.inr hleft)
    have hload := load_of_mem (run.scope reporting view call) call hnesting hname hmarked
    have hreply : run.reply loader view call = reply := rfl
    obtain ⟨hresult, hstate⟩ := Prod.mk.inj ((load_of_reply hreply).symm.trans hload)
    exact ⟨hresult, congrArg State.added hstate⟩
  · intro failure hresult
    obtain ⟨asked, _, chain, hasked, hown, -, hbreaks, hchain⟩ := exists_breaks rfl hresult
    obtain ⟨hhead, hlinks⟩ := hbreaks.isChain_left
    exact ⟨chain, hchain, hbreaks.nodup_left, fun name hname => hasked name (hhead name hname),
      hown, hlinks⟩

/-- A module that imports one that is there and one that is not. -/
def halfProject : Workspace where
  files := ⟨[(["main.js"], .file "import \"./lib.js\";\nimport \"./gone.js\";\n".toUTF8),
    (["lib.js"], .file "var l;\n".toUTF8)]⟩
  cwd := some []
  start := ⟨.root, []⟩

/-- The call that imports a module. -/
def importing (name : String) : Call := ⟨.module, name, .null, {}⟩

/-- The reply to the first load of the module. -/
def firstReply : Reply (List (Value × String)) :=
  (newRun ⟨.root, []⟩ []).reply (Source.loader false 8) (fun _ => halfProject) (importing "main.js")

/-- The session after that load. -/
def afterFailure : Run (List (Value × String)) :=
  (newRun ⟨.root, []⟩ []).callAll (Source.loader false 8) (fun _ => halfProject) [importing "main.js"]

/-- The reply to a load that comes next. -/
def nextReply (name : String) : Reply (List (Value × String)) :=
  afterFailure.reply (Source.loader false 8) (fun _ => halfProject) (importing name)

/-- The module is left behind by the first load of it, which fails. A second load of it succeeds and
adds nothing, and what was loaded before the failure stays loaded. -/
theorem loads_unless_leftBehind_lib :
    "main.js" ∈ firstReply.left { base := ⟨.root, []⟩ } ∧
    ((nextReply "main.js").result = .ok () ∧ (nextReply "main.js").added = []) ∧
    (nextReply "lib.js").result = .ok () ∧
    ∃ unit ∈ Element.units (afterFailure.take (nextReply "lib.js")).session.elements,
      unit.name = "lib.js" := by
  have hload (calls : List Call) (name : String) := loads_unless_leftBehind false 8
    (fun _ => halfProject) ⟨.root, []⟩ [] calls (importing name)
  refine ⟨?_, ?_, ?_⟩
  · have hfails : firstReply.result.toOption = none := by decide +kernel
    rcases hresult : firstReply.result with failure | _
    · obtain ⟨chain, hchain, -, -, hown, -⟩ := (hload [] "main.js").2.2 failure hresult
      exact (hchain "main.js").mpr (hown "main.js" rfl (by decide))
    · exact absurd hfails (by rw [hresult]; nofun)
  · exact (hload [importing "main.js"] "main.js").2.1 "main.js" (by decide +kernel) rfl (by decide)
  · have hresult : (nextReply "lib.js").result = .ok () := eq_ok_of_toOption (by decide +kernel)
    obtain ⟨name, hname, hunit⟩ := (hload [importing "main.js"] "lib.js").1 hresult
    obtain rfl : "lib.js" = name := Except.ok.inj hname
    exact ⟨hresult, hunit.mpr (by decide +kernel)⟩

/-- A call may succeed without a unit of its name, behind one for the same name that failed. -/
theorem not_always_loaded :
    ¬ ∀ (view : View) (base : Path) (calls : List Call) (call : Call),
      (((newRun base []).callAll (Source.loader false 8) view calls).reply (Source.loader false 8) view
        call).result = .ok () →
      ∃ name, ModuleName.canonical call.name call.referrer call.options = .ok name ∧
        ∃ unit ∈ Element.units
            (((newRun base []).callAll (Source.loader false 8) view calls).take
              (((newRun base []).callAll (Source.loader false 8) view calls).reply
                (Source.loader false 8) view call)).session.elements, unit.name = name := by
  intro hall
  have hresult : (nextReply "main.js").result = .ok () := eq_ok_of_toOption (by decide +kernel)
  obtain ⟨name, hname, hunit⟩ := hall (fun _ => halfProject) ⟨.root, []⟩ [importing "main.js"]
    (importing "main.js") hresult
  obtain rfl : "main.js" = name := Except.ok.inj hname
  exact absurd hunit (by decide +kernel)

end Compile

end Bundler
