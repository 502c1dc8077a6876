import Bundler.Proofs.Locations
import Bundler.Proofs.Places
import Bundler.Proofs.SourceLoading

/-!
# Sources and places

The source of a name is the text of the file at the place that its path leads to.
-/

namespace Bundler.Load.Source

variable {w : Workspace} {base : Path} {name source : String}

/-- The text that the bytes of a file write. -/
def textOf? (content : ByteArray) : Option String :=
  match Text.Utf8.decode content with
  | .ok cs => some (String.ofList (Text.unifyLineEnds cs))
  | .error _ => none

/-- What is read at a path, for whatever name, is the text of the file there. -/
lemma toOption_read (w : Workspace) (path : Path) (name : String) (referrer : Value) :
    (read w path name referrer).toOption = (w.read path).toOption.bind textOf? := by
  unfold read
  cases w.read path with
  | ok content =>
    dsimp only [Except.toOption, Option.bind_some, textOf?]
    cases Text.Utf8.decode content <;> rfl
  | error fault =>
    cases fault with
    | nullByte => rfl
    | file error =>
      dsimp only
      cases error.code <;> rfl

/-- The source of a name is the text of what can be read at its path. -/
lemma sourceAt?_eq (w : Workspace) (base : Path) (name : String) :
    sourceAt? w base name = (w.read (locate base name)).toOption.bind textOf? :=
  toOption_read w (locate base name) name .null

/-- What is found at the path of a name that has a source is a file with that text. -/
lemma exists_look_of_sourceAt? (h : sourceAt? w base name = some source) :
    ∃ loc content, w.look (locate base name) = .ok (loc, .file content) ∧
      textOf? content = some source := by
  rw [sourceAt?_eq] at h
  obtain ⟨content, hread, htext⟩ := Option.bind_eq_some_iff.mp h
  unfold Workspace.read at hread
  split at hread
  · cases hread
  · split at hread
    · next loc _ hlook =>
      cases hread
      exact ⟨loc, content, hlook, htext⟩
    · cases hread
    · cases hread

/-- A name that has a source leads to a file with that text. -/
lemma exists_file_of_sourceAt? (hbase : base.isAbsolute = true)
    (h : sourceAt? w base name = some source) :
    ∃ content, w.files.node? (locate base name).place = some (.file content) ∧
      textOf? content = some source := by
  obtain ⟨_, content, hlook, htext⟩ := exists_look_of_sourceAt? h
  exact ⟨content, (Workspace.look_ok (Path.isAbsolute_append _ hbase) hlook).2, htext⟩

/-- Nothing can be read at a path that is too long. -/
lemma sourceAt?_of_isTooLong (h : Workspace.isTooLong (locate base name) = true) :
    sourceAt? w base name = none := by
  have hlook : w.look (locate base name) = .error .nameTooLong := by rw [Workspace.look, if_pos h]
  rw [sourceAt?_eq, Workspace.read, hlook]
  split <;> rfl

end Bundler.Load.Source
