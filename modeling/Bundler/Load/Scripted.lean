import Bundler.Element.Emit
import Bundler.Load.Basic

/-!
# Loading by script

The scripted loader takes sources from a script instead of files, and the script can make it change
its options, add further elements and fail. It keeps a trail of what it was asked, which shows what
a compilation makes of a loader's replies.
-/

namespace Bundler.Load

namespace Scripted

/-- What the loader does for a name. -/
structure Plan where
  /-- Settings to change, each at a path of keys. -/
  changes : List (List Value × Value) := []
  /-- Elements to add before the compiled one. -/
  injected : List Element := []
  failure : Option Failure := none
  source : String := ""
  dependencies : List String := []

/-- The plans of the names; a name without one has an empty plan. -/
abbrev Script := List (String × Plan)

/-- What happened to a load. -/
inductive Event where
  | started
  | failed
  | ended
  deriving DecidableEq, Repr

/-- What the loader was asked, in order. -/
structure Trail where
  events : List (Event × String) := []
  /-- The calls, with the current directory of each. -/
  calls : List (Call × Option Path) := []

/-- The plan of a name. -/
def plan (script : Script) (name : String) : Plan := (script.lookup name).getD {}

/-- The element that a call compiles. -/
def compiled (plan : Plan) (call : Call) (options : Options) : Element :=
  .compiled (match call.kind with
    | .module => .ofModule options call.name plan.dependencies plan.source
    | .script => .ofScript call.name plan.source)

/-- The trail with a load that begins. -/
def Trail.begin (trail : Trail) (call : Call) (cwd : Option Path) : Trail where
  events := trail.events ++ [(.started, call.name)]
  calls := trail.calls ++ [(call, cwd)]

/-- The trail with a further event. -/
def Trail.add (trail : Trail) (event : Event) (name : String) : Trail :=
  { trail with events := trail.events ++ [(event, name)] }

/-- Follow the plan of a name. The answer comes with the event that the load ends with, if it comes
to one. -/
def answer (script : Script) (session : Session) (call : Call) : Option Event × Answer :=
  let plan := plan script call.name
  match plan.changes.foldlM (fun o (keys, value) => Options.assignExtra o keys value)
      call.options with
  | .error failure =>
    (none, { result := .error failure, added := [], loaded := session.loaded,
             extras := call.options.extras })
  | .ok options =>
    match plan.failure with
    | some failure =>
      (some .failed, { result := .error failure, added := plan.injected, loaded := session.loaded,
                       extras := options.extras })
    | none =>
      (some .ended, { result := .ok (), added := plan.injected ++ [compiled plan call options],
                      loaded := session.loaded, extras := options.extras })

/-- Load a name, with a trail of it. -/
def load (script : Script) (view : View) (session : Session) (trail : Trail) (call : Call) :
    Reply Trail :=
  let started := trail.begin call (view []).cwdPath.toOption
  let (event, answer) := answer script session call
  { answer with
    memory := event.elim started (started.add · call.name)
    notes := [] }

/-- Load a name beside other work. -/
def ask (script : Script) (session : Session) (call : Call) : Inquiry Trail Answer := do
  let w ← Inquiry.see
  Inquiry.remember fun trail => trail.begin call w.cwdPath.toOption
  let (event, answer) := answer script session call
  if let some event := event then
    Inquiry.remember fun trail => trail.add event call.name
  return answer

end Scripted

/-- The loader that follows a script. -/
def Scripted.loader (script : Scripted.Script) : SharedLoader Scripted.Trail where
  load := Scripted.load script
  nameOf name referrer _ := ModuleName.seenFrom name referrer
  ask := Scripted.ask script

end Bundler.Load
