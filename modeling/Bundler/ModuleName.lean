import Bundler.Options
import Bundler.Path.Basic

/-!
# Module names

A module is known under the normal form of the path that names it, with forward slashes. A name
that starts with `./` or `../` is seen from the directory of the module that refers to it, and a
name without an extension gets the one of the options. The empty name stands for the directory
itself.
-/

namespace Bundler.ModuleName

/-- Whether a name is seen from the module that refers to it. -/
def isRelative : List Char → Bool
  | '.' :: '/' :: _ | '.' :: '.' :: '/' :: _ => true
  | _ => false

/-- The directory of the module that a text names, with forward slashes. -/
def directoryOf (referrer : String) : Path :=
  .ofChars (Text.throughLast '/' (Text.swap '\\' '/' referrer.toList))

/-- The text of a module name. -/
def text (p : Path) : String := if p = ⟨.relative, []⟩ then "" else p.text

/-- The normal form of a name seen from `referrer`, the empty text if there is none. -/
def normalize (name referrer : String) : String :=
  let cs := Text.swap '\\' '/' name.toList
  let start : Path := if isRelative cs then directoryOf referrer else ⟨.relative, []⟩
  text (start.append (.ofChars cs)).normalize

/-- The text of a referrer; null and other values that count as false stand for none. -/
def referrerText (referrer : Value) : Except Failure String :=
  if !referrer.truthy then .ok ""
  else match referrer with
    | .text s => .ok s
    | .scalar (.bytes _) => .error (.unsuitable "a bytes-like object is required, not 'str'")
    | .scalar (.date _) | .scalar (.moment _) =>
      .error (.unsuitable "'str' object cannot be interpreted as an integer")
    | v => .error (.unsupported ("'" ++ v.typeName ++ "' object has no attribute 'replace'"))

/-- The normal form of a name seen from a referrer of any kind. Only a relative name needs the
referrer. -/
def seenFrom (name : String) (referrer : Value) : Except Failure String :=
  if isRelative (Text.swap '\\' '/' name.toList) then
    (referrerText referrer).map (normalize name)
  else .ok (normalize name "")

/-- Whether the last segment of a name has an extension: a dot that is not one of the leading
ones. -/
def hasExtension (name : String) : Bool :=
  ((Text.afterLast '/' name.toList).dropWhile (· == '.')).contains '.'

/-- The extension of names that have none. -/
def defaultExtension : String := ".js"

/-- The extension that the options ask for. -/
def extension (options : Options) : Except Failure String :=
  match options.get? "extension" with
  | none => .ok defaultExtension
  | some (.text s) => .ok s
  | some v =>
    .error (.unsuitable ("can only concatenate str (not \"" ++ v.fullTypeName ++ "\") to str"))

/-- The name with the extension of the options if it has none. -/
def complete (name : String) (options : Options) : Except Failure String :=
  if hasExtension name then .ok name else (extension options).map (name ++ ·)

/-- The name under which a module is known when `referrer` asks for `name`. -/
def canonical (name : String) (referrer : Value) (options : Options) : Except Failure String := do
  complete (← seenFrom name referrer) options

end Bundler.ModuleName
