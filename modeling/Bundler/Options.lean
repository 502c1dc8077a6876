import Bundler.Value.Access
import Bundler.Value.Equality

/-!
# Options

What a compilation is asked to do. Options are read from the `compile` section of a configuration
and from overrides; keys that name no field are passed through to the loader and the compiler.
-/

namespace Bundler

/-- The form in which modules are written. -/
inductive ModuleMode where
  /-- Modules are wrapped in a registration under their name. -/
  | register
  | inline
  | bootstrap
  deriving DecidableEq, Repr

namespace ModuleMode

/-- Every mode, in the order in which messages list them. -/
def all : List ModuleMode := [.register, .inline, .bootstrap]

/-- The word for a mode. -/
def word : ModuleMode → String
  | .register => "register"
  | .inline => "inline"
  | .bootstrap => "bootstrap"

/-- The mode that a value asks for; null asks for none. -/
def ofValue (v : Value) : Except Failure (Option ModuleMode) :=
  match v with
  | .null => .ok none
  | .text s => match all.find? (·.word == s) with
    | some mode => .ok (some mode)
    | none => .error (.configuration (.unknownModuleMode s (all.map word)))
  | _ => do .error (.configuration (.unknownModuleMode (← v.describe) (all.map word)))

end ModuleMode

/-- What a compilation is asked to do. -/
structure Options where
  /-- Whether several entries are merged into one file, as it was given. -/
  bundle : Value := .bool false
  /-- If set, dependencies are listed for this target and nothing is written. -/
  dependencyTarget : Value := .null
  /-- The name that entry names are seen from. -/
  referrerName : Value := .null
  moduleMode : Option ModuleMode := none
  /-- Settings for the loader and the compiler. -/
  extras : Mapping := []
  deriving Repr

/-- The fields that a configuration may set. -/
inductive Field where
  | moduleMode
  | referrerName
  | dependencyTarget
  deriving DecidableEq, Repr

/-- The field that a key names; a field has a long and a short name. -/
def Field.ofKey? : Scalar → Option Field
  | .text "modules" | .text "module_mode" => some .moduleMode
  | .text "referrer" | .text "referrer_name" => some .referrerName
  | .text "dep_target" | .text "dependency_target" => some .dependencyTarget
  | _ => none

/-- The settings collected from a configuration before they are checked. -/
structure Settings where
  moduleMode : Value := .null
  referrerName : Value := .null
  dependencyTarget : Value := .null
  extras : Mapping := []

namespace Settings

/-- The settings with one more entry; the key `bundle` has no effect. -/
def write (s : Settings) (entry : Scalar × Value) : Settings :=
  if entry.1 = .text "bundle" then s
  else match Field.ofKey? entry.1 with
    | some .moduleMode => { s with moduleMode := entry.2 }
    | some .referrerName => { s with referrerName := entry.2 }
    | some .dependencyTarget => { s with dependencyTarget := entry.2 }
    | none => { s with extras := Mapping.insert s.extras entry.1 entry.2 }

/-- The settings of a mapping and the overrides that are not null, which win. -/
def collect (data overrides : Mapping) : Settings :=
  (overrides.filter fun e => !e.2.isNull).foldl write (data.foldl write {})

end Settings

namespace Options

/-- Whether modules are wrapped in a registration. -/
def isRegister (o : Options) : Bool := o.moduleMode == some .register

/-- The options that settings ask for. -/
def ofSettings (s : Settings) : Except Failure Options := do
  let mode ← ModuleMode.ofValue s.moduleMode
  .ok { dependencyTarget := s.dependencyTarget, referrerName := s.referrerName,
        moduleMode := mode, extras := s.extras }

/-- The options of a mapping and of the overrides that are not null, which win. -/
def ofMapping (data overrides : Mapping) : Except Failure Options :=
  ofSettings (Settings.collect data overrides)

/-- Names that are taken, so that no override can have them. -/
def takenNames : List String := ["cls", "data"]

/-- Whether a key can be the name of an override: a text that is not taken. -/
def isFreeName : Scalar → Bool
  | .text name => !takenNames.contains name
  | _ => false

/-- The options of a mapping and of overrides that are given by name. -/
def ofArguments (data overrides : Mapping) : Except Failure Options :=
  if overrides.all fun e => isFreeName e.1 then ofMapping data overrides
  else .error (.unsuitable "an argument has no name or is given twice")

/-- The options with a field given by its name. -/
def withField (o : Options) (entry : Scalar × Value) : Except Failure Options :=
  match entry.1 with
  | .text "bundle" => .ok { o with bundle := entry.2 }
  | .text "dependency_target" => .ok { o with dependencyTarget := entry.2 }
  | .text "referrer_name" => .ok { o with referrerName := entry.2 }
  | .text "module_mode" => do .ok { o with moduleMode := ← ModuleMode.ofValue entry.2 }
  | .text "extras" => .ok { o with extras := entry.2.entries?.getD [] }
  | _ => .error (.unsuitable "unexpected argument")

/-- The names of the fields. -/
def fieldNames : List String :=
  ["bundle", "dependency_target", "referrer_name", "module_mode", "extras"]

/-- New options with the given fields. A name that is none of a field is refused first. -/
def ofFields (fields : Mapping) : Except Failure Options :=
  if fields.all fun entry => fieldNames.any fun name => Scalar.text name == entry.1 then
    fields.foldlM withField {}
  else .error (.unsuitable "unexpected argument")

/-- Set a field of options in place. They are frozen: only a copy can be different. -/
def setField (_ : Options) (field : String) (_ : Value) : Except Failure Options :=
  .error (.unsupported ("cannot assign to field " ++ Text.Quoted.ofText field))

/-- The options with another value of `bundle`. -/
def withBundle (o : Options) (bundle : Value) : Options := { o with bundle }

/-- The value of a setting that is passed through. -/
def get? (o : Options) (key : String) : Option Value := Mapping.getText? o.extras key

/-- Whether two options are equal; the order of the settings passed through does not count. -/
def equals (o p : Options) : Bool :=
  o.bundle.equals p.bundle && o.dependencyTarget.equals p.dependencyTarget
    && o.referrerName.equals p.referrerName && o.moduleMode == p.moduleMode
    && (Value.mapping o.extras).equals (.mapping p.extras)

/-- The options with a setting that is passed through changed at the end of a path of keys. -/
def assignExtra (o : Options) (keys : List Value) (value : Value) : Except Failure Options := do
  match ← Value.assign (.mapping o.extras) keys value with
  | .mapping extras => .ok { o with extras }
  | _ => .ok o

end Options

end Bundler
