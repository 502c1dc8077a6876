import Bundler.Proofs.EntryOrder
import Bundler.Proofs.InOrder

/-!
# Transcripts of loaders

A loader may do whatever it likes with its memory, so a loader that also writes down each call and
its reply shows what a compilation asks of any loader: the entries in order, each once, with the
options of the request. What the replies add, with the evaluations of registered modules in between,
makes the tree, and the first failure ends the compilation.
-/

namespace Bundler

open Compile

namespace Load

variable {σ : Type}

/-- A call of a loader and its reply. -/
structure Exchange (σ : Type) where
  call : Call
  reply : Reply σ

/-- The loader that also keeps a transcript, with the latest exchange last. -/
def Loader.transcribed (loader : Loader σ) : Loader (σ × List (Exchange σ)) where
  load view session memory call :=
    let reply := loader.load view session memory.1 call
    { result := reply.result, memory := (reply.memory, memory.2 ++ [⟨call, reply⟩]),
      added := reply.added, loaded := reply.loaded, extras := reply.extras, notes := reply.notes }
  nameOf := loader.nameOf

/-- The evaluation that follows a call that succeeds: that of a module that is to be registered,
under the name that the loader gives it with the options as the call left them. -/
def Exchange.evaluation (loader : Loader σ) (exchange : Exchange σ) : Except Failure Tree :=
  if exchange.call.kind = .module ∧ exchange.call.options.isRegister then
    (loader.nameOf exchange.call.name exchange.call.referrer
      { exchange.call.options with extras := exchange.reply.extras }).map
        fun name => [.evaluation name]
  else .ok []

/-- What comes of a call: its failure, or the elements it added and the evaluation behind them. -/
def Exchange.outcome (loader : Loader σ) (exchange : Exchange σ) : Except Failure Tree :=
  match exchange.reply.result with
  | .error failure => .error failure
  | .ok () => (exchange.evaluation loader).map (exchange.reply.added ++ ·)

/-- What a call leaves in the session; one that fails leaves what it had added. -/
def Exchange.left (loader : Loader σ) (exchange : Exchange σ) : Tree :=
  match exchange.outcome loader with
  | .error _ => exchange.reply.added
  | .ok tree => tree

/-- The exchanges take a loader from one memory to another: each call finds the memory that the call
before it left, and a session with the elements that all calls before it left. -/
inductive Leads (loader : Loader σ) : Tree → σ → List (Exchange σ) → σ → Prop where
  | nothing (tree : Tree) (memory : σ) : Leads loader tree memory [] memory
  | call {view : View} {session : Session} {tree : Tree} {memory memory' : σ}
      {exchange : Exchange σ} {rest : List (Exchange σ)} (hsession : session.elements = tree)
      (hreply : exchange.reply = loader.load view session memory exchange.call)
      (hrest : Leads loader (tree ++ exchange.left loader) exchange.reply.memory rest memory') :
      Leads loader tree memory (exchange :: rest) memory'

end Load

namespace Compile

open Load

variable {σ : Type} {loader : Loader σ} {view : View} {options : Options} {entry : Entry}
  {entries : List Entry} {run : Run (σ × List (Exchange σ))} {exchanges : List (Exchange σ)}
  {base : Path} {memory : σ}

/-- The run without the transcript. -/
def Run.untold (run : Run (σ × List (Exchange σ))) : Run σ :=
  { session := run.session, memory := run.memory.1, notes := run.notes }

/-! ### The transcript makes no difference -/

lemma addEvaluation_transcribed (run : Run (σ × List (Exchange σ))) :
    addEvaluation loader options entry run.untold
      = ((addEvaluation loader.transcribed options entry run).1,
        (addEvaluation loader.transcribed options entry run).2.untold) := by
  unfold addEvaluation
  split
  · have hname : loader.transcribed.nameOf = loader.nameOf := rfl
    rw [hname]
    cases loader.nameOf entry.name options.referrerName options with
    | error failure => rfl
    | ok name =>
      have hsession : run.untold.session = run.session := rfl
      dsimp only
      rw [hsession]
      cases run.session.append (.evaluation name) <;> rfl
  · rfl

/-- The exchange in which an entry is loaded. -/
def exchangeOf (loader : Loader σ) (view : View) (options : Options) (entry : Entry)
    (run : Run (σ × List (Exchange σ))) : Exchange σ where
  call := callOf options entry
  reply := loader.load (fun ns => view (run.notes ++ [entryNote entry] ++ ns)) run.session
    run.memory.1 (callOf options entry)

/-- The run that has taken the reply of an exchange and written it down. -/
def Run.record (run : Run (σ × List (Exchange σ))) (exchange : Exchange σ) :
    Run (σ × List (Exchange σ)) :=
  run.take { exchange.reply with memory := (exchange.reply.memory, run.memory.2 ++ [exchange]) }

/-- The load of an entry is one exchange, and an evaluation if it goes well. -/
lemma loadEntry_transcribed (run : Run (σ × List (Exchange σ))) :
    loadEntry loader.transcribed view options entry run =
      let exchange := exchangeOf loader view options entry run
      let run' := Run.record { run with notes := run.notes ++ [entryNote entry] } exchange
      match exchange.reply.result with
      | .error failure => (.error failure, run')
      | .ok () => addEvaluation loader.transcribed { options with extras := exchange.reply.extras }
          entry run' := rfl

lemma loadEntry_untold (loader : Loader σ) (view : View) (options : Options) (entry : Entry)
    (run : Run (σ × List (Exchange σ))) :
    loadEntry loader view options entry run.untold
      = ((loadEntry loader.transcribed view options entry run).1,
        (loadEntry loader.transcribed view options entry run).2.untold) := by
  rw [loadEntry_transcribed]
  unfold loadEntry
  dsimp only
  have hreply : loader.load (fun ns => view (run.untold.notes ++ [entryNote entry] ++ ns))
      run.untold.session run.untold.memory (callOf options entry)
      = (exchangeOf loader view options entry run).reply := rfl
  rw [hreply]
  generalize exchangeOf loader view options entry run = exchange
  cases exchange.reply.result with
  | error failure => rfl
  | ok _ =>
    exact addEvaluation_transcribed
      (Run.record { run with notes := run.notes ++ [entryNote entry] } exchange)

lemma inOrder_untold (loader : Loader σ) (view : View) (options : Options) (entries : List Entry)
    (run : Run (σ × List (Exchange σ))) :
    inOrder (loadEntry loader view options) entries run.untold
      = ((inOrder (loadEntry loader.transcribed view options) entries run).1,
        (inOrder (loadEntry loader.transcribed view options) entries run).2.untold) := by
  induction entries generalizing run with
  | nil => rfl
  | cons entry entries ih =>
    have hfirst := loadEntry_untold loader view options entry run
    cases hstep : loadEntry loader.transcribed view options entry run with
    | mk result mid =>
      rw [hstep] at hfirst
      cases result with
      | error failure => rw [inOrder_cons_error _ hfirst, inOrder_cons_error _ hstep]
      | ok _ => rw [inOrder_cons_ok _ hfirst, inOrder_cons_ok _ hstep, ih]

/-- The loader that keeps a transcript compiles what the loader itself compiles. -/
lemma compileEntries_untold (loader : Loader σ) (view : View) (entries : List Entry)
    (options : Options) (base : Path) (memory : σ) :
    compileEntries loader view entries options base memory
      = ((compileEntries loader.transcribed view entries options base (memory, [])).1,
        (compileEntries loader.transcribed view entries options base (memory, [])).2.untold) := by
  have hrun := inOrder_untold loader view options entries (newRun base (memory, []))
  have hnew : (newRun base (memory, ([] : List (Exchange σ)))).untold = newRun base memory := rfl
  rw [hnew] at hrun
  cases hstep : inOrder (loadEntry loader.transcribed view options) entries
      (newRun base (memory, [])) with
  | mk result run =>
    rw [hstep] at hrun
    cases result with
    | error failure =>
      rw [compileEntries_of_inOrder_error hrun, compileEntries_of_inOrder_error hstep]
    | ok _ => rw [compileEntries_of_inOrder hrun, compileEntries_of_inOrder hstep]; rfl

/-! ### What the transcript tells -/

/-- An evaluation is added where one is asked for. -/
lemma addEvaluation_evaluation (loader : Loader σ) {exchange : Exchange σ}
    {run : Run (σ × List (Exchange σ))} (hcall : exchange.call = callOf options entry)
    (hopen : run.session.closed = false) :
    (addEvaluation loader.transcribed { options with extras := exchange.reply.extras } entry run).1
        = (exchange.evaluation loader).map (fun _ => ()) ∧
      (addEvaluation loader.transcribed { options with extras := exchange.reply.extras } entry
          run).2.memory = run.memory ∧
      (addEvaluation loader.transcribed { options with extras := exchange.reply.extras } entry
          run).2.session.elements
        = run.session.elements ++ (match exchange.evaluation loader with
          | .error _ => []
          | .ok tree => tree) := by
  have hname : loader.transcribed.nameOf = loader.nameOf := rfl
  have hregister : ({ options with extras := exchange.reply.extras } : Options).isRegister
      = options.isRegister := rfl
  have hevaluation : exchange.evaluation loader = if entry.kind = .module ∧ options.isRegister then
      (loader.nameOf entry.name options.referrerName
        { options with extras := exchange.reply.extras }).map fun name => [.evaluation name]
      else .ok [] := by
    unfold Exchange.evaluation
    rw [hcall]
    rfl
  rw [hevaluation]
  unfold addEvaluation
  rw [hname, hregister]
  split
  · cases loader.nameOf entry.name options.referrerName
        { options with extras := exchange.reply.extras } with
    | error failure => simp [Except.map]
    | ok name => simp [Except.map, Session.append, hopen]
  · simp [Except.map]

/-- An entry is loaded by an exchange, which takes one run to another. -/
structure LoadsBy (loader : Loader σ) (options : Options) (entry : Entry)
    (run : Run (σ × List (Exchange σ))) (exchange : Exchange σ)
    (run' : Run (σ × List (Exchange σ))) : Prop where
  call : exchange.call = callOf options entry
  reply : ∃ view, exchange.reply = loader.load view run.session run.memory.1 exchange.call
  memory : run'.memory = (exchange.reply.memory, run.memory.2 ++ [exchange])
  elements : run'.session.elements = run.session.elements ++ exchange.left loader

/-- The load of an entry leaves what its exchange leaves and succeeds if that does. -/
lemma exists_loadsBy (loader : Loader σ) (view : View) (options : Options) (entry : Entry)
    (hopen : run.session.closed = false) :
    ∃ exchange,
      LoadsBy loader options entry run exchange
        (loadEntry loader.transcribed view options entry run).2 ∧
      (loadEntry loader.transcribed view options entry run).1
        = (exchange.outcome loader).map fun _ => () := by
  refine ⟨exchangeOf loader view options entry run, ?_⟩
  rw [loadEntry_transcribed]
  have hcall : (exchangeOf loader view options entry run).call = callOf options entry := rfl
  have hreply : ∃ view', (exchangeOf loader view options entry run).reply
      = loader.load view' run.session run.memory.1
        (exchangeOf loader view options entry run).call := ⟨_, rfl⟩
  generalize exchangeOf loader view options entry run = exchange at hcall hreply ⊢
  dsimp only
  cases hloaded : exchange.reply.result with
  | error failure =>
    have houtcome : exchange.outcome loader = .error failure := by
      rw [Exchange.outcome, hloaded]
    rw [houtcome]
    refine ⟨⟨hcall, hreply, rfl, ?_⟩, rfl⟩
    rw [Exchange.left, houtcome]
    rfl
  | ok _ =>
    have houtcome : exchange.outcome loader
        = (exchange.evaluation loader).map (exchange.reply.added ++ ·) := by
      rw [Exchange.outcome, hloaded]
    have hopen' : (Run.record { run with notes := run.notes ++ [entryNote entry] }
      exchange).session.closed = false := hopen
    obtain ⟨hresult, hmemory, helements⟩ := addEvaluation_evaluation loader hcall hopen'
    refine ⟨⟨hcall, hreply, hmemory, ?_⟩, ?_⟩
    · rw [helements, Exchange.left, houtcome]
      cases exchange.evaluation loader <;> simp [Except.map, Run.record, Run.take]
    · rw [hresult, houtcome]
      cases exchange.evaluation loader <;> rfl

/-- The exchanges tell of entries loaded one after another: what was asked, what was left, and
whether it went well. -/
structure Tells (loader : Loader σ) (options : Options) (entries : List Entry)
    (run : Run (σ × List (Exchange σ))) (exchanges : List (Exchange σ))
    (result : Except Failure Unit × Run (σ × List (Exchange σ))) : Prop where
  transcript : result.2.memory.2 = run.memory.2 ++ exchanges
  calls : exchanges.map (·.call) <+: entries.map (callOf options)
  replies : Leads loader run.session.elements run.memory.1 exchanges result.2.memory.1
  elements : result.2.session.elements
    = run.session.elements ++ exchanges.flatMap (·.left loader)
  finished : (∀ exchange ∈ exchanges, ∃ tree, exchange.outcome loader = .ok tree) →
    result.1 = .ok () ∧ exchanges.length = entries.length
  stopped : ∀ before exchange after failure, exchanges = before ++ exchange :: after →
    exchange.outcome loader = .error failure → result.1 = .error failure ∧ after = []

section

variable {mid : Run (σ × List (Exchange σ))} {exchange : Exchange σ}

/-- A load that fails is the last one told of. -/
lemma LoadsBy.tells_error {failure : Failure} (h : LoadsBy loader options entry run exchange mid)
    (houtcome : exchange.outcome loader = .error failure) :
    Tells loader options (entry :: entries) run [exchange] (.error failure, mid) := by
  obtain ⟨view, hreply⟩ := h.reply
  refine ⟨?_, ?_, ?_, ?_, ?_, ?_⟩
  · rw [h.memory]
  · simp [h.call]
  · exact .call rfl hreply (by rw [h.memory]; exact .nothing _ _)
  · simpa using h.elements
  · intro hall
    obtain ⟨tree, htree⟩ := hall exchange List.mem_cons_self
    cases houtcome.symm.trans htree
  · intro before exchange' after failure' hsplit hfails
    obtain ⟨rfl, rfl, rfl⟩ : before = [] ∧ exchange = exchange' ∧ after = [] := by
      cases before <;> simp_all
    cases houtcome.symm.trans hfails
    exact ⟨rfl, rfl⟩

/-- Behind a load that succeeds the others are told of. -/
lemma LoadsBy.tells_cons {tree : Tree} {result : Except Failure Unit × Run (σ × List (Exchange σ))}
    (h : LoadsBy loader options entry run exchange mid)
    (houtcome : exchange.outcome loader = .ok tree)
    (hrest : Tells loader options entries mid exchanges result) :
    Tells loader options (entry :: entries) run (exchange :: exchanges) result := by
  obtain ⟨view, hreply⟩ := h.reply
  refine ⟨?_, ?_, ?_, ?_, ?_, ?_⟩
  · rw [hrest.transcript, h.memory]
    simp
  · rw [List.map_cons, List.map_cons, h.call]
    exact (List.prefix_cons_inj _).mpr hrest.calls
  · refine .call rfl hreply ?_
    have hreplies := hrest.replies
    rwa [h.elements, h.memory] at hreplies
  · rw [hrest.elements, h.elements]
    simp
  · intro hall
    obtain ⟨hend, hlength⟩ := hrest.finished fun exchange' hmem =>
      hall exchange' (List.mem_cons_of_mem _ hmem)
    exact ⟨hend, by simp [hlength]⟩
  · intro before exchange' after failure' hsplit hfails
    cases before with
    | nil =>
      -- the first exchange did not fail
      obtain ⟨rfl, -⟩ := List.cons.inj hsplit
      cases houtcome.symm.trans hfails
    | cons _ before =>
      exact hrest.stopped before exchange' after failure' (List.cons.inj hsplit).2 hfails

end

lemma exists_tells (loader : Loader σ) (view : View) (options : Options) (entries : List Entry)
    (hopen : IsOpen base run.session) :
    ∃ exchanges, Tells loader options entries run exchanges
      (inOrder (loadEntry loader.transcribed view options) entries run) := by
  induction entries generalizing run with
  | nil =>
    exact ⟨[], by simp, by simp, .nothing _ _, by simp, fun _ => ⟨rfl, rfl⟩, by simp⟩
  | cons entry entries ih =>
    obtain ⟨exchange, hloads, hresult⟩ := exists_loadsBy loader view options entry hopen.2
    have hmid := loadEntry_isOpen loader.transcribed view options entry hopen
    cases hstep : loadEntry loader.transcribed view options entry run with
    | mk result mid =>
      rw [hstep] at hresult hloads hmid
      cases houtcome : exchange.outcome loader with
      | error failure =>
        rw [houtcome] at hresult
        obtain rfl : result = .error failure := hresult
        rw [inOrder_cons_error _ hstep]
        exact ⟨[exchange], hloads.tells_error houtcome⟩
      | ok tree =>
        rw [houtcome] at hresult
        obtain rfl : result = .ok () := hresult
        rw [inOrder_cons_ok _ hstep]
        obtain ⟨exchanges, htells⟩ := ih hmid
        exact ⟨exchange :: exchanges, hloads.tells_cons houtcome htells⟩

/-- A compilation as a transcript tells it. -/
structure IsTranscript (loader : Loader σ) (entries : List Entry) (options : Options) (memory : σ)
    (exchanges : List (Exchange σ)) (result : Except Failure (Option Tree) × Run σ) : Prop where
  /-- The entries are asked for in order, each with what the request says. -/
  calls : exchanges.map (·.call) <+: entries.map (callOf options)
  replies : Leads loader [] memory exchanges result.2.memory
  elements : result.2.session.elements = exchanges.flatMap (·.left loader)
  finished : (∀ exchange ∈ exchanges, ∃ tree, exchange.outcome loader = .ok tree) →
    exchanges.length = entries.length ∧
      result.1 = .ok (if options.dependencyTarget.truthy then none
        else some (exchanges.flatMap (·.left loader)))
  /-- A failure is the last that a loader is asked. -/
  stopped : ∀ before exchange after failure, exchanges = before ++ exchange :: after →
    exchange.outcome loader = .error failure → result.1 = .error failure ∧ after = []

/-- Whatever the loader does, its transcript tells the compilation, and that is the compilation
without a transcript. -/
theorem compileEntries_isTranscript (loader : Loader σ) (view : View) (entries : List Entry)
    (options : Options) (base : Path) (memory : σ) :
    compileEntries loader view entries options base memory
        = ((compileEntries loader.transcribed view entries options base (memory, [])).1,
          (compileEntries loader.transcribed view entries options base (memory, [])).2.untold) ∧
      IsTranscript loader entries options memory
        (compileEntries loader.transcribed view entries options base (memory, [])).2.memory.2
        (compileEntries loader view entries options base memory) := by
  have huntold := compileEntries_untold loader view entries options base memory
  refine ⟨huntold, ?_⟩
  rw [huntold]
  have hopen : IsOpen base (newRun base (memory, ([] : List (Exchange σ)))).session := ⟨rfl, rfl⟩
  obtain ⟨exchanges, htells⟩ := exists_tells loader view options entries hopen
  cases hrun : inOrder (loadEntry loader.transcribed view options) entries
      (newRun base (memory, [])) with
  | mk result run =>
    rw [hrun] at htells
    obtain ⟨htranscript, hcalls, hreplies, helements, hfinished, hstopped⟩ := htells
    dsimp only [newRun, List.nil_append] at htranscript hreplies helements
    cases result with
    | error failure =>
      rw [compileEntries_of_inOrder_error hrun, htranscript]
      refine ⟨hcalls, hreplies, helements, ?_, ?_⟩
      · intro hall
        cases (hfinished hall).1
      · intro before exchange after failure' hsplit hfails
        obtain ⟨hresult, rfl⟩ := hstopped before exchange after failure' hsplit hfails
        cases hresult
        exact ⟨rfl, rfl⟩
    | ok _ =>
      rw [compileEntries_of_inOrder hrun]
      dsimp only
      rw [htranscript]
      refine ⟨hcalls, hreplies, helements, ?_, ?_⟩
      · intro hall
        rw [← helements]
        exact ⟨(hfinished hall).2, rfl⟩
      · intro before exchange after failure' hsplit hfails
        cases (hstopped before exchange after failure' hsplit hfails).1

end Compile

end Bundler
