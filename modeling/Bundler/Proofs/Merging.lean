import Bundler.Compile.Requests
import Bundler.Proofs.InOrder
import Bundler.Proofs.Work

/-!
# Merged requests

A merged request goes to the directory of its output and loads its entries there, in one session.
It gives the tree of that session.
-/

namespace Bundler.Compile

open Load WorkM

variable {σ α : Type} {loader : Loader σ} {request : Request} {work : Work (Record σ)}

/-- The file that a merged request is written to. -/
def Request.target (request : Request) (w : Workspace) : Path :=
  .resolve request.output (w.base request.base)

/-- The directory in which a merged request loads and writes. -/
def Request.directory (request : Request) (w : Workspace) : Path := (request.target w).parent

/-- The options that a merged request is compiled with. -/
def Request.mergeOptions (request : Request) : Options :=
  (request.options.getD {}).withBundle (.bool (decide (1 < request.entries.length)))

/-- The entries of a merged request, seen from the directory of its output. -/
def Request.entriesIn (request : Request) (w : Workspace) : Except FileError (List Entry) :=
  Entry.resolveAll w (w.base request.base) (some (request.directory w)) request.entries

/-- Go to a directory, which is made if it is missing. The answer is the way back. -/
def arrive (target : Path) : WorkM σ Path := do
  let previous ← departure target
  makeDirectories target
  enter target
  note (.debug directorySource ("Working directory switched to " ++ target.text))
  pure previous

/-- Come back to a directory. -/
def comeBack (previous : Path) : WorkM σ Unit := do
  enter previous
  note (.debug directorySource ("Working directory restored to " ++ previous.text))

/-- Work in a directory starts with going there and always ends with coming back. -/
lemma within_eq (target : Path) (body : WorkM σ α) :
    within target body = arrive target >>= fun previous => thenAlways body (comeBack previous) := by
  simp only [within, arrive, comeBack, bind_assoc, pure_bind]

/-- The work when a merged request has come to the directory of its output. -/
def Request.arrived (request : Request) (work : Work (Record σ)) : Work (Record σ) :=
  (carryOut (do begin request.mergeOptions; arrive (request.directory work.workspace)) work).2

/-- The workspace as the loader of a merged request sees it. -/
def Request.view (request : Request) (work : Work (Record σ)) : View :=
  (request.arrived work).journal.view (request.arrived work).workspace

/-- The compilation of a merged request. -/
def Request.compile (request : Request) (loader : Loader σ) (entries : List Entry)
    (work : Work (Record σ)) : Except Failure (Option Tree) × Run σ :=
  compileEntries loader (request.view work) entries request.mergeOptions
    (request.directory work.workspace) (request.arrived work).memory.memory

/-- A session that succeeds gives what the compilation of its entries gives. -/
lemma session_ok {entries : List Entry} {options : Options} {base : Path} {tree : Option Tree}
    (h : (carryOut (session loader entries options base) work).1 = .ok tree) :
    (compileEntries loader (work.journal.view work.workspace) entries options base
      work.memory.memory).1 = .ok tree := by
  simp only [session, carryOut_bind_eq_ok_iff, carryOut_get, carryOut_set, carryOut_ofExcept] at h
  obtain ⟨_, hwork, _, -, _, -, htree⟩ := h
  cases hwork
  exact htree

/-- A tree that is written is the one that was loaded. -/
lemma session_of_merge_body {entries : List Entry} {options : Options} {base : Path}
    {tree : Option Tree} {write : Tree → WorkM (Record σ) Unit}
    (h : (carryOut (do
        let tree ← session loader entries options base
        if let some tree := tree then
          write tree
        pure tree) work).1 = .ok tree) :
    (carryOut (session loader entries options base) work).1 = .ok tree := by
  obtain ⟨loaded, hloaded, hwritten⟩ := carryOut_bind_eq_ok_iff.mp h
  rw [hloaded]
  cases loaded with
  | none => exact hwritten
  | some tree' =>
    obtain ⟨_, -, hpure⟩ := carryOut_bind_eq_ok_iff.mp hwritten
    exact hpure

/-- A merged request that succeeds gives the tree of its compilation. -/
theorem merge_ok {tree : Option Tree} (h : (carryOut (merge loader request) work).1 = .ok tree) :
    ∃ entries, request.entriesIn work.workspace = .ok entries ∧
      (request.compile loader entries work).1 = .ok tree := by
  simp only [merge, within_eq, carryOut_bind_eq_ok_iff, carryOut_get, carryOut_ofExcept] at h
  obtain ⟨_, hwork, entries, hentries, _, -, previous, -, hbody⟩ := h
  cases hwork
  have hresolved : request.entriesIn work.workspace = .ok entries := by
    unfold Request.entriesIn Request.directory Request.target
    cases hall : Entry.resolveAll work.workspace (work.workspace.base request.base)
        (some (Path.resolve request.output (work.workspace.base request.base)).parent)
        request.entries with
    | error fault => rw [hall] at hentries; cases hentries
    | ok resolved =>
      rw [hall] at hentries
      cases hentries
      rfl
  have hlength : entries.length = request.entries.length := length_of_mapM_eq_ok hresolved
  refine ⟨entries, hresolved, ?_⟩
  have htree := session_ok (session_of_merge_body (carryOut_thenAlways_ok hbody))
  rw [hlength] at htree
  exact htree

end Bundler.Compile
