import Mathlib.Data.List.Induction
import Mathlib.Logic.Function.Basic
import Bundler.Proofs.Changes

/-!
# Files written in turns

A task writes a file in two steps: the file is opened, which takes its content away, and bytes are
written to it from its start on. Between these steps others may open the same file or write to it.
A file that nobody opened is as it was. Any other holds what has been written since it was opened
for the last time, each piece over the start of those before.
-/

namespace Bundler

/-! ### Bytes over bytes -/

namespace Workspace

/-- Pieces of bytes, each written over the start of those before. -/
def overlays (pieces : List ByteArray) : ByteArray :=
  pieces.foldl (fun old bytes => overlay bytes old) .empty

@[simp] lemma overlays_nil : overlays [] = .empty := rfl

lemma overlays_concat (pieces : List ByteArray) (bytes : ByteArray) :
    overlays (pieces ++ [bytes]) = overlay bytes (overlays pieces) := by
  simp [overlays]

lemma overlay_self (bytes : ByteArray) : overlay bytes bytes = bytes := by
  ext1
  simp [overlay]

/-- The same bytes may be written any number of times. -/
lemma overlays_of_forall_eq {pieces : List ByteArray} {bytes : ByteArray} (hne : pieces ≠ [])
    (h : ∀ piece ∈ pieces, piece = bytes) : overlays pieces = bytes := by
  induction pieces using List.reverseRecOn with
  | nil => exact absurd rfl hne
  | append_singleton pieces last ih =>
    obtain rfl : last = bytes := h last (by simp)
    rw [overlays_concat]
    by_cases hnil : pieces = []
    · rw [hnil, overlays_nil, overlay_empty]
    · rw [ih hnil fun piece hpiece => h piece (by simp [hpiece]), overlay_self]

end Workspace

namespace Steps

open Workspace

/-! ### One task -/

/-- How far a task has come with a file. -/
inductive Stage where
  | idle
  | opened
  | wrote (bytes : ByteArray)

/-- What a step makes of the content of the file, and how far the task has come with it then. -/
inductive Stage.Moves : Stage → Stage → Option ByteArray → Option ByteArray → Prop where
  | stay (stage : Stage) (content : Option ByteArray) : Moves stage stage content content
  | opening (content : Option ByteArray) : Moves .idle .opened content (some .empty)
  | writing (bytes : ByteArray) (content : Option ByteArray) :
      Moves .opened (.wrote bytes) content (content.map (overlay bytes))

variable {s t α β : Type} {S : s → Prop} {file : s → Option ByteArray} {ends : Stage → α → Prop}
  {stage : Stage}

/-- From states that satisfy `S` the task goes through the stages of a file in order, and its result
is as `ends` says for the stage it has come to. -/
def Follows (S : s → Prop) (file : s → Option ByteArray) (ends : Stage → α → Prop) :
    Stage → Steps s α → Prop
  | stage, done a => ends stage a
  | stage, step change next => ∀ w, S w → S (change w) ∧
    ∃ stage', stage.Moves stage' (file w) (file (change w)) ∧ (next w).Follows S file ends stage'

namespace Follows

variable {task : Steps s α}

lemma pure {a : α} (h : ends stage a) : (Pure.pure a : Steps s α).Follows S file ends stage := h

lemma mono {ends' : Stage → α → Prop} (h : task.Follows S file ends stage)
    (hends : ∀ stage a, ends stage a → ends' stage a) : task.Follows S file ends' stage := by
  induction task generalizing stage with
  | done a => exact hends stage a h
  | step change next ih =>
    intro w hw
    obtain ⟨hchange, stage', hmoves, hrest⟩ := h w hw
    exact ⟨hchange, stage', hmoves, ih w hrest⟩

lemma once {act : s → α × s} (h : ∀ w, S w → S (act w).2 ∧
      ∃ stage', stage.Moves stage' (file w) (file (act w).2) ∧ ends stage' (act w).1) :
    (Steps.once act).Follows S file ends stage := h

/-- A task that leaves the file alone stays at the stage that it begins at. -/
lemma of_always {P : s → s → Prop} {Q : α → Prop} (h : task.Always P Q)
    (hP : ∀ w w', S w → P w w' → S w' ∧ file w' = file w) :
    task.Follows S file (fun stage' a => stage' = stage ∧ Q a) stage := by
  induction task with
  | done a => exact ⟨rfl, h⟩
  | step change next ih =>
    intro w hw
    obtain ⟨hchange, hsame⟩ := hP w _ hw (h w).1
    refine ⟨hchange, stage, ?_, ih w (h w).2⟩
    rw [hsame]
    exact .stay _ _

/-- A task that goes on does so from the stage that the first part has come to. -/
lemma bind {ends' : Stage → β → Prop} {next : α → Steps s β}
    (h : task.Follows S file ends stage)
    (hnext : ∀ stage a, ends stage a → (next a).Follows S file ends' stage) :
    (task >>= next).Follows S file ends' stage := by
  induction task generalizing stage with
  | done a => exact hnext stage a h
  | step change rest ih =>
    intro w hw
    obtain ⟨hchange, stage', hmoves, hrest⟩ := h w hw
    exact ⟨hchange, stage', hmoves, ih w hrest⟩

/-- A task on a part of the state goes through the stages as it does on the part. -/
lemma onPart {S' : t → Prop} {file' : t → Option ByteArray} {part : s → t} {put : t → s → s}
    {task : Steps t α} (hpart : ∀ w, S w → S' (part w)) (hput : ∀ w x, S w → S (put x w))
    (hfile : ∀ w, file w = file' (part w)) (hfileput : ∀ w x, file (put x w) = file' x)
    (h : task.Follows S' file' ends stage) : (task.onPart part put).Follows S file ends stage := by
  induction task generalizing stage with
  | done a => exact h
  | step change next ih =>
    intro w hw
    obtain ⟨-, stage', hmoves, hrest⟩ := h (part w) (hpart w hw)
    rw [← hfile, ← hfileput w] at hmoves
    exact ⟨hput w _ hw, stage', hmoves, ih (part w) hrest⟩

end Follows

/-! ### Tasks in turns -/

/-- What has become of a file when `count` tasks have come to their stages with it. -/
def Shows (count : Nat) (stage : Nat → Stage) (before after : Option ByteArray) : Prop :=
  (∀ k < count, stage k = .idle) ∧ after = before ∨
  ∃ pieces, after = some (overlays pieces) ∧
    (∀ bytes ∈ pieces, ∃ k < count, stage k = .wrote bytes) ∧
    (pieces = [] → ∃ k < count, stage k = .opened)

variable {count i : Nat} {stages : Nat → Stage} {before now after : Option ByteArray}

/-- What one task does keeps the account right. -/
lemma Shows.move {stage' : Stage} (h : Shows count stages before now) (hi : i < count)
    (hmoves : (stages i).Moves stage' now after) :
    Shows count (Function.update stages i stage') before after := by
  generalize hstage : stages i = stage at hmoves
  cases hmoves with
  | stay => rwa [← hstage, Function.update_eq_self]
  | opening =>
    exact Or.inr ⟨[], rfl, by simp, fun _ => ⟨i, hi, Function.update_self _ _ _⟩⟩
  | writing bytes =>
    rcases h with ⟨hidle, -⟩ | ⟨pieces, rfl, hpieces, -⟩
    · rw [hidle i hi] at hstage
      cases hstage
    · refine Or.inr ⟨pieces ++ [bytes], by rw [overlays_concat]; rfl, ?_, by simp⟩
      intro piece hpiece
      rcases List.mem_append.mp hpiece with hearlier | hlast
      · obtain ⟨k, hk, hwrote⟩ := hpieces piece hearlier
        have hne : k ≠ i := by
          rintro rfl
          rw [hstage] at hwrote
          cases hwrote
        exact ⟨k, hk, by rw [Function.update_of_ne hne, hwrote]⟩
      · obtain rfl := List.mem_singleton.mp hlast
        exact ⟨i, hi, Function.update_self _ _ _⟩

/-- When tasks that go through the stages of a file have taken their steps, in whatever turns, the
file shows how far they have come with it. -/
theorem together_shows {ends : Nat → Stage → α → Prop} {tasks : List (Steps s α)} {w : s}
    (turns : List Nat) (hS : S w)
    (h : ∀ (k : Nat) (task : Steps s α), tasks[k]? = some task →
      task.Follows S file (ends k) .idle) :
    ∃ stages : Nat → Stage,
      (∀ k a, (together turns tasks w).1[k]? = some a → ends k (stages k) a) ∧
      Shows tasks.length stages (file w) (file (together turns tasks w).2) := by
  have hend := together_induction
    (I := fun now w' => S w' ∧ now.length = tasks.length ∧ ∃ stages : Nat → Stage,
      (∀ (k : Nat) (task : Steps s α), now[k]? = some task →
        task.Follows S file (ends k) (stages k)) ∧
      Shows tasks.length stages (file w) (file w'))
    ?_ turns tasks w ⟨hS, rfl, fun _ => .idle, h, Or.inl ⟨fun _ _ => rfl, rfl⟩⟩
  · obtain ⟨-, -, stages, hends, hshows⟩ := hend
    refine ⟨stages, fun k a ha => ?_, hshows⟩
    exact hends k (done a) (by rw [List.getElem?_map, ha]; rfl)
  · rintro now w' i task ⟨hw', hlength, stages, hfollows, hshows⟩ htask
    have hi : i < tasks.length := hlength ▸ (List.getElem?_eq_some_iff.mp htask).1
    have hmoved : S (task.first w').2 ∧
        ∃ stage', (stages i).Moves stage' (file w') (file (task.first w').2) ∧
          (task.first w').1.Follows S file (ends i) stage' := by
      have hown := hfollows i task htask
      cases task with
      | done a => exact ⟨hw', stages i, .stay _ _, hown⟩
      | step change next => exact hown w' hw'
    obtain ⟨hS', stage', hmoves, hrest⟩ := hmoved
    refine ⟨hS', by rw [List.length_set, hlength], Function.update stages i stage', ?_,
      hshows.move hi hmoves⟩
    intro k task' htask'
    rcases getElem?_set_eq_some htask htask' with ⟨rfl, rfl⟩ | ⟨hne, hother⟩
    · rwa [Function.update_self]
    · rw [Function.update_of_ne hne]
      exact hfollows k task' hother

end Steps

end Bundler
