import Bundler.Proofs.Counterparts
import Bundler.Proofs.FilesOfNames
import Bundler.Proofs.SharedFiles
import Bundler.Proofs.Walks

/-!
# Relative names and absolute names

A name that is relative to a directory has an absolute name as its counterpart. Both lead to the
same file, by paths of which the relative one is longer, and the files they depend on are named in
the same two ways if no specifier is bare.
-/

namespace Bundler.Compile

open Load Load.Source Bundler.Units ModuleName Bundler.Path

/-! ### Relative names and absolute names -/

/-- What starts nowhere has its counterpart below the root. -/
def Rooted (a a' : Anchor) : Prop := a' = if a = .relative then .root else a

lemma rooted_self (a : Anchor) (h : a ≠ .relative) : Rooted a a := by
  simp [Rooted, h]

variable {w : Workspace} {directory base : Path} {n n' : String}

/-- The paths of a relative name and its absolute counterpart are the same, or the first one goes up
from the directory. -/
lemma paths_of_counterparts (hdirectory : w.HasDirectory directory)
    (h : Counterparts Rooted directory base n n') :
    locate base n' = .ofString n' ∧ (locate directory n = locate base n' ∨ ∃ up rest,
      locate directory n = ⟨.root, directory.segments ++ (List.replicate up ".." ++ rest)⟩ ∧
      locate base n'
        = ⟨.root, directory.segments.take (directory.segments.length - up) ++ rest⟩) := by
  obtain @⟨q, q', tail, hq, hq', htail, hanchor, hplace⟩ := h
  have hrest : (Path.ofString tail).isAbsolute = false := by
    simp [isAbsolute, Path.ofString, ofChars, anchorOf_eq_relative_iff.mpr htail.head?_ne]
  have habsolute : q'.isAbsolute = true := by
    have hne : q'.anchor ≠ .relative := by
      rw [hanchor]
      split <;> simp [*]
    simpa [isAbsolute] using hne
  have hsegments : (base.append q').place = q'.segments := by
    have hup := hq'.normal
    rw [habsolute] at hup
    exact segments_normalize_absolute habsolute hup.not_mem
  have hstands : ∀ ss, base.append ⟨q'.anchor, ss⟩ = ⟨q'.anchor, ss⟩ :=
    fun _ => append_absolute base habsolute
  rw [locate, locate, ofString_below hq.wellFormed htail.head?_ne,
    ofString_below hq'.wellFormed htail.head?_ne, append_relative q hrest, append_relative q' hrest,
    hstands]
  refine ⟨rfl, ?_⟩
  by_cases hrelative : q.anchor = .relative
  · right
    have hroot : q'.anchor = .root := by rw [hanchor, if_pos hrelative]
    have hq'' : q.isAbsolute = false := by simp [isAbsolute, hrelative]
    obtain ⟨down, hsplit, hdown, -⟩ := exists_down hq.normal
    rw [place, segments_normalize_append hdirectory.isAbsolute hdirectory.normal hq'' hsplit hdown,
      hsegments] at hplace
    refine ⟨q.climb, down ++ (Path.ofString tail).segments, ?_, ?_⟩
    · have happend : ∀ ss, directory.append ⟨q.anchor, ss⟩
          = ⟨directory.anchor, directory.segments ++ ss⟩ := fun _ => append_relative directory hq''
      rw [happend, hdirectory.root, hsplit, List.append_assoc]
    · rw [hroot, ← hplace, List.append_assoc]
  · left
    have hsame : q'.anchor = q.anchor := by rw [hanchor, if_neg hrelative]
    have hq'' : q.isAbsolute = true := by simpa [isAbsolute] using hrelative
    have hup := hq.normal
    rw [hq''] at hup
    rw [hsegments, place, segments_normalize_absolute hq'' hup.not_mem] at hplace
    have hstands' : ∀ ss, directory.append ⟨q.anchor, ss⟩ = ⟨q.anchor, ss⟩ :=
      fun _ => append_absolute directory hq''
    rw [hstands', hsame, hplace]

/-- An absolute counterpart has the source that the relative name has, if its path is short enough. -/
lemma sourceAt?_of_counterparts (hdirectory : w.HasDirectory directory)
    (hshort : Workspace.isTooLong (locate directory n) = false)
    (h : Counterparts Rooted directory base n n') :
    sourceAt? w base n' = sourceAt? w directory n := by
  obtain ⟨hwalk, hnode⟩ := hdirectory.walk_ok
  rw [sourceAt?_eq, sourceAt?_eq]
  obtain ⟨-, hsame | ⟨up, rest, hpath, hpath'⟩⟩ := paths_of_counterparts hdirectory h
  · rw [hsame]
  · have hplain := hdirectory.plain
    rw [hpath] at hshort ⊢
    rw [hpath']
    congr 1
    apply Workspace.read_congr
    · unfold Workspace.holdsNull at hplain ⊢
      have habove : (directory.segments.take (directory.segments.length - up)).any
          (fun s => s.toList.contains '\x00') = false := by
        rw [List.any_eq_false] at hplain ⊢
        exact fun s hs => hplain s (List.mem_of_mem_take hs)
      have hdots : (List.replicate up "..").any (fun s => s.toList.contains '\x00') = false := by
        rw [List.any_eq_false]
        intro s hs
        rw [List.eq_of_mem_replicate hs]
        decide
      simp only [List.any_append, hplain, habove, hdots, Bool.false_or]
    · apply Workspace.look_congr rfl rfl _ hshort
      · exact (FileTree.walk_detour hdirectory.normal hwalk hnode up rest).symm
      · apply Workspace.isTooLong_of_le _ hshort
        have habove := sizeOf_le_of_sublist
          (List.take_sublist (directory.segments.length - up) directory.segments)
        simp only [sizeOf_append]
        omega

/-- The absolute counterpart of a relative name writes where it leads to. -/
lemma normalize_of_counterparts (hdirectory : w.HasDirectory directory)
    (hbase : base.isAbsolute = true) (h : Counterparts Rooted directory base n n') :
    (Path.ofString n').normalize = (locate directory n).normalize := by
  have hplace := place_of_counterparts hdirectory.isAbsolute hbase h
  obtain ⟨habsolute, hsame | ⟨up, rest, hpath, hpath'⟩⟩ := paths_of_counterparts hdirectory h
  · rw [← habsolute, hsame]
  · rw [← habsolute]
    have hanchor : (locate base n').normalize.anchor = (locate directory n).normalize.anchor := by
      rw [Path.normalize, Path.normalize, hpath, hpath']
    exact congrArg₂ Path.mk hanchor hplace.symm

/-! ### Modules below both directories -/

/-- All specifiers of a source start with `./`, `../` or a slash and end in an ordinary segment. -/
def HasPlainSpecifiers (source : String) : Prop :=
  ∀ specifier ∈ Specifier.ofSource source, IsAnchored specifier ∧ IsOrdinary specifier

instance (source : String) : Decidable (HasPlainSpecifiers source) :=
  inferInstanceAs (Decidable (∀ specifier ∈ Specifier.ofSource source, _ ∧ _))

/-- Some names, seen from a directory, are of files that can be told by their paths and write out
where their dependencies are. -/
def ArePlain (w : Workspace) (directory : Path) (names : List String) : Prop :=
  ∀ name ∈ names, Workspace.isTooLong (locate directory name) = false ∧
    ∀ source, sourceAt? w directory name = some source → HasPlainSpecifiers source

instance (w : Workspace) (directory : Path) (names : List String) :
    Decidable (ArePlain w directory names) :=
  inferInstanceAs (Decidable (∀ name ∈ names, _ ∧
    ∀ source ∈ sourceAt? w directory name, HasPlainSpecifiers source))

variable {options : Options} {u v : CompiledUnit} {source : String} {loaded : List String}

/-- Counterparts have the same source and refer to counterparts, or neither has all its
dependencies. -/
lemma dependencies_of_source (options : Options) (hdirectory : w.HasDirectory directory)
    (hbase : base.isAbsolute = true) (hplain : ArePlain w directory loaded) (hmem : n ∈ loaded)
    (h : Counterparts Rooted directory base n n')
    (hsource : sourceAt? w directory n = some source) :
    sourceAt? w base n' = some source ∧
    ((∃ cs cs', (Specifier.ofSource source).mapM
          (fun specifier => canonical specifier (.text n) options) = .ok cs ∧
        (Specifier.ofSource source).mapM
          (fun specifier => canonical specifier (.text n') options) = .ok cs' ∧
        List.Forall₂ (Counterparts Rooted directory base) cs cs') ∨
      ∃ failure, (Specifier.ofSource source).mapM
          (fun specifier => canonical specifier (.text n) options) = .error failure ∧
        (Specifier.ofSource source).mapM
          (fun specifier => canonical specifier (.text n') options) = .error failure) := by
  obtain ⟨hshort, hspecifiers⟩ := hplain n hmem
  constructor
  · rw [sourceAt?_of_counterparts hdirectory hshort h, hsource]
  · apply dependencies_of_counterparts hdirectory.isAbsolute hbase rooted_self _ rfl h
    intro specifier hspecifier
    obtain ⟨hanchored, hordinary⟩ := hspecifiers source hsource specifier hspecifier
    exact ⟨Or.inl hanchored, hordinary⟩

/-- A counterpart of a module has the same source and depends on counterparts. -/
lemma exists_of_isModule_left (hdirectory : w.HasDirectory directory)
    (hbase : base.isAbsolute = true) (hplain : ArePlain w directory loaded) (hmem : u.name ∈ loaded)
    (h : Counterparts Rooted directory base u.name n') (hu : IsModule w directory options u) :
    ∃ source cs', sourceAt? w directory u.name = some source ∧
      u = .ofModule options u.name u.dependencies source ∧ sourceAt? w base n' = some source ∧
      (Specifier.ofSource source).mapM
        (fun specifier => canonical specifier (.text n') options) = .ok cs' ∧
      List.Forall₂ (Counterparts Rooted directory base) u.dependencies cs' := by
  obtain ⟨source, hsource, hnames, hunit⟩ := hu
  obtain ⟨hsource', ⟨cs, cs', hcs, hcs', hall⟩ | ⟨failure, hnone, -⟩⟩ :=
    dependencies_of_source options hdirectory hbase hplain hmem h hsource
  · obtain rfl : u.dependencies = cs := Except.ok.inj (hnames.symm.trans hcs)
    exact ⟨source, cs', hsource, hunit, hsource', hcs', hall⟩
  · rw [hnames] at hnone
    cases hnone

/-- What has a module as its counterpart has the same source and depends on counterparts. -/
lemma exists_of_isModule_right (hdirectory : w.HasDirectory directory)
    (hbase : base.isAbsolute = true) (hplain : ArePlain w directory loaded) (hmem : n ∈ loaded)
    (h : Counterparts Rooted directory base n v.name) (hv : IsModule w base options v) :
    ∃ source cs, sourceAt? w directory n = some source ∧
      (Specifier.ofSource source).mapM
        (fun specifier => canonical specifier (.text n) options) = .ok cs ∧
      List.Forall₂ (Counterparts Rooted directory base) cs v.dependencies := by
  obtain ⟨source, hsource', hnames, -⟩ := hv
  have hsource := hsource'
  rw [sourceAt?_of_counterparts hdirectory (hplain n hmem).1 h] at hsource
  obtain ⟨-, ⟨cs, cs', hcs, hcs', hall⟩ | ⟨failure, -, hnone⟩⟩ :=
    dependencies_of_source options hdirectory hbase hplain hmem h hsource
  · obtain rfl : v.dependencies = cs' := Except.ok.inj (hnames.symm.trans hcs')
    exact ⟨source, cs, hsource, hcs, hall⟩
  · rw [hnames] at hnone
    cases hnone

/-! ### Corresponding units -/

/-- The second name is the absolute name of what the first one leads to from a directory. -/
structure IsAbsoluteName (options : Options) (directory : Path) (n n' : String) : Prop where
  path : (Path.ofString n').normalize = (locate directory n).normalize
  text : ¬ HasSlash options → n' = (locate directory n).normalize.text

/-- A canonical name that is a counterpart is the absolute name, if it does not lead to the root. -/
lemma isAbsoluteName_of_counterparts (hdirectory : w.HasDirectory directory)
    (hbase : base.isAbsolute = true) {name : String} {referrer : Value}
    (hcanonical : canonical name referrer options = .ok n')
    (hroot : (locate base n').normalize.segments ≠ [])
    (h : Counterparts Rooted directory base n n') : IsAbsoluteName options directory n n' := by
  have hpath := normalize_of_counterparts hdirectory hbase h
  obtain ⟨hlocate, -⟩ := paths_of_counterparts hdirectory h
  refine ⟨hpath, ?_⟩
  intro hslash
  rw [← hpath]
  have hextension : ∀ e, extension options = .ok e → '/' ∉ e.toList :=
    fun e he hmem => hslash ⟨e, he, hmem⟩
  rcases canonical_path hcanonical hextension with ⟨hnormal, -, htext⟩ | ⟨-, hempty⟩ | ⟨hempty, -⟩
  · rw [normalize_of_isNormal hnormal, htext]
  · rw [hlocate] at hroot
    exact absurd hempty hroot
  · have habsolute : (locate base n').isAbsolute = true := isAbsolute_append _ hbase
    rw [hlocate, hempty] at habsolute
    cases habsolute

/-- Two modules are made from the same source, the second one under absolute names. -/
structure Corresponds (w : Workspace) (options : Options) (directory base : Path)
    (u v : CompiledUnit) : Prop where
  name : IsAbsoluteName options directory u.name v.name
  dependencies : List.Forall₂ (IsAbsoluteName options directory) u.dependencies v.dependencies
  source : ∃ source, sourceAt? w directory u.name = some source ∧
    sourceAt? w base v.name = some source ∧
    u = .ofModule options u.name u.dependencies source ∧
    v = .ofModule options v.name v.dependencies source

end Bundler.Compile
