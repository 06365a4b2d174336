/-
GridFlux/TreePaths.lean

Where the files of a tree manifest lie.

A path is resolved lexically from a working directory: an element `..` goes up,
a name goes down, an absolute path starts at the root (`lexicalLocation`).  A
relative path that `validateTreeRelativePath` accepts is a list of names and
nothing else (`segments_of_valid`), so joined to a destination it leads
strictly beneath it (`acceptedPaths_beneath`).  Two paths lead to one place
exactly if they are equal once every run of slashes is written as one slash;
the duplicate check of the parser compares the texts, and misses the others
(`distinctLocations_iff`).
-/
import GridFlux.TreeEnumeration
import GridFlux.TreeJobs
import GridFlux.TreeRoundTrip

namespace FileTree

open TextCodec

variable {N : Type*}

namespace FsPath

/-- One element of a path, taken lexically. -/
def lexicalStep (loc : List N) : PathPart N → List N
  | .up => loc.dropLast
  | .name n => loc ++ [n]

/-- The location a path spells, no link being looked at. -/
def lexicalLocation (cwd : List N) (p : FsPath N) : List N :=
  p.parts.foldl lexicalStep (if p.absolute then [] else cwd)

theorem foldl_lexicalStep_names (loc names : List N) :
    (names.map .name).foldl lexicalStep loc = loc ++ names := by
  induction names generalizing loc with
  | nil => exact (List.append_nil loc).symm
  | cons n names ih =>
      rw [List.map_cons, List.foldl_cons, ih, lexicalStep, List.append_assoc]
      rfl

/-- Names behind a path go down from where it leads. -/
theorem lexicalLocation_names (cwd : List N) (p : FsPath N) (names : List N) :
    (⟨p.absolute, p.parts ++ names.map .name⟩ : FsPath N).lexicalLocation cwd =
      p.lexicalLocation cwd ++ names := by
  rw [lexicalLocation, List.foldl_append, foldl_lexicalStep_names]
  rfl

end FsPath

end FileTree

namespace GridFlux

open TextCodec FileTree

/-! ### An accepted path is a list of names -/

/-- The non-empty pieces of a path. -/
def segments (path : Bytes) : List Bytes := (pieces slash path).filter (· ≠ [])

/-- What `validateTreeRelativePath` lets through. -/
structure ValidTreePath (path : Bytes) : Prop where
  ne_nil : path ≠ []
  head : path.head? ≠ some slash
  last : path.getLast? ≠ some slash
  parts : ∀ part ∈ segments path, part ≠ ascii "." ∧ part ≠ ascii ".."

theorem validTreePath {path : Bytes} (h : validateTreeRelativePath path = .ok ()) :
    ValidTreePath path := by
  simp only [validateTreeRelativePath, bind_eq_ok, require_eq_ok] at h
  obtain ⟨_, hne, _, ⟨hhead, -⟩, _, -, _, -, _, -, hparts⟩ := h
  refine ⟨hne, hhead, ?_, ?_⟩
  · -- a slash at the end is followed by an empty part
    intro hlast
    apply (hparts [] ?_).1 rfl
    rw [pathParts, if_pos hlast]
    exact List.mem_append_right _ (List.mem_singleton_self _)
  · intro part hpart
    exact (hparts part (List.mem_append_left _ hpart)).2

/-- The segments as names. -/
theorem ValidTreePath.names {path : Bytes} (h : ValidTreePath path) :
    ∃ names : List Name, names ≠ [] ∧ names.map Subtype.val = segments path ∧
      (pieces slash path).filterMap partOf = names.map .name := by
  have hsegment : ∀ part ∈ segments path,
      part ≠ [] ∧ slash ∉ part ∧ part ≠ ascii "." ∧ part ≠ ascii ".." := by
    intro part hpart
    obtain ⟨hmem, hne⟩ := List.mem_filter.mp hpart
    exact ⟨by simpa using hne, notMem_of_mem_pieces slash hmem, h.parts part hpart⟩
  have hpieces : (pieces slash path).filterMap partOf = (segments path).filterMap partOf := by
    rw [segments]
    generalize pieces slash path = parts
    induction parts with
    | nil => rfl
    | cons part parts ih =>
        by_cases hempty : part = []
        · subst hempty
          rw [List.filterMap_cons_none (by rfl), List.filter_cons_of_neg (by simp), ih]
        · rw [List.filter_cons_of_pos (by simpa using hempty), List.filterMap_cons,
            List.filterMap_cons, ih]
  have hnames : ∃ names : List Name, names.map Subtype.val = segments path ∧
      (segments path).filterMap partOf = names.map .name := by
    generalize segments path = parts at hsegment
    induction parts with
    | nil => exact ⟨[], rfl, rfl⟩
    | cons part parts ih =>
        obtain ⟨names, hval, hparts⟩ := ih fun p hp => hsegment p (List.mem_cons_of_mem _ hp)
        obtain ⟨hne, hslash, hdot, hup⟩ := hsegment part List.mem_cons_self
        refine ⟨⟨part, hne, hslash, hdot, hup⟩ :: names, ?_, ?_⟩
        · rw [List.map_cons, hval]
        · have hpart : partOf part = some (.name ⟨part, hne, hslash, hdot, hup⟩) :=
            partOf_partText (.name ⟨part, hne, hslash, hdot, hup⟩)
          rw [List.filterMap_cons, hpart, hparts, List.map_cons]
  obtain ⟨names, hval, hparts⟩ := hnames
  refine ⟨names, ?_, hval, hpieces.trans hparts⟩
  rintro rfl
  -- the last byte belongs to a segment
  obtain ⟨c, hc⟩ := Option.isSome_iff_exists.mp (List.getLast?_isSome.mpr h.ne_nil)
  have hcslash : c ≠ slash := by
    rintro rfl
    exact h.last hc
  obtain ⟨p, hp, hplast⟩ := mem_pieces_getLast slash hc hcslash
  have hmem : p ∈ segments path := by
    refine List.mem_filter.mpr ⟨hp, ?_⟩
    cases p with
    | nil => cases hplast
    | cons x p => rfl
  rw [← hval] at hmem
  cases hmem

/-! ### Joined to a root -/

/-- The path that `std::filesystem` builds for a relative path behind a root,
read back. -/
theorem parse_appendPath (root : Bytes) {path : Bytes} (hhead : path.head? ≠ some slash) :
    FsPath.parse (appendPath root path) =
      ⟨(FsPath.parse root).absolute,
        (FsPath.parse root).parts ++ (pieces slash path).filterMap partOf⟩ := by
  rw [appendPath, if_neg hhead]
  split
  · rename_i hroot
    by_cases hempty : root = []
    · subst hempty
      have hrelative : (path.head? == some (47 : UInt8)) = false := by
        rw [beq_eq_false_iff_ne]
        exact hhead
      rw [List.nil_append, FsPath.parse, hrelative]
      rfl
    · -- the root ends in a slash
      obtain ⟨front, rfl⟩ := List.getLast?_eq_some_iff.mp (hroot.resolve_left hempty)
      have hparts := FsPath.elements_append front path
      have hroots := FsPath.elements_append front []
      have habsolute : (front ++ [slash] ++ path).head? = (front ++ [slash]).head? := by
        cases front with
        | nil => rfl
        | cons x front => rfl
      rw [FsPath.parse, FsPath.parse, habsolute, List.append_assoc]
      show (⟨_, (pieces 47 (front ++ 47 :: path)).filterMap partOf⟩ : FsPath Name) =
        ⟨_, (pieces 47 (front ++ 47 :: [])).filterMap partOf ++
          (pieces 47 path).filterMap partOf⟩
      rw [hparts, hroots, List.append_assoc]
      rfl
  · rename_i hroot
    have habsolute : (root ++ slash :: path).head? = root.head? := by
      cases root with
      | nil => exact absurd (Or.inl rfl) hroot
      | cons x root => rfl
    rw [FsPath.parse, FsPath.parse, habsolute]
    exact congrArg _ (FsPath.elements_append root path)

/-- Where a relative path behind a root leads. -/
def treeLocation (cwd : List Name) (root path : Bytes) : List Name :=
  (FsPath.parse (appendPath root path)).lexicalLocation cwd

/-- `loc` lies beneath `base`, and is not `base`. -/
def StrictlyBeneath (base loc : List Name) : Prop := ∃ names, names ≠ [] ∧ loc = base ++ names

theorem ValidTreePath.treeLocation_eq {path : Bytes} (h : ValidTreePath path) (cwd : List Name)
    (root : Bytes) :
    ∃ names : List Name, names ≠ [] ∧ names.map Subtype.val = segments path ∧
      treeLocation cwd root path = (FsPath.parse root).lexicalLocation cwd ++ names := by
  obtain ⟨names, hne, hval, hparts⟩ := h.names
  refine ⟨names, hne, hval, ?_⟩
  rw [treeLocation, parse_appendPath root h.head, hparts, FsPath.lexicalLocation_names]

/-! ### The records of a manifest -/

theorem mem_of_mapM {α β : Type} {f : α → Except Status β} {xs : List α} {ys : List β}
    (h : xs.mapM f = .ok ys) : ∀ y ∈ ys, ∃ x ∈ xs, f x = .ok y := by
  induction xs generalizing ys with
  | nil =>
      obtain rfl := Except.ok.inj h
      exact fun y hy => (List.not_mem_nil hy).elim
  | cons x xs ih =>
      rw [List.mapM_cons, bind_eq_ok] at h
      obtain ⟨y, hy, h⟩ := h
      rw [bind_eq_ok] at h
      obtain ⟨ys', hys, h⟩ := h
      obtain rfl := Except.ok.inj h
      intro z hz
      rcases List.mem_cons.mp hz with rfl | hz
      · exact ⟨x, List.mem_cons_self, hy⟩
      · obtain ⟨x', hx', hz'⟩ := ih hys z hz
        exact ⟨x', List.mem_cons_of_mem _ hx', hz'⟩

theorem valid_of_parseTreeFile {item : Bytes} {file : TreeFileRecord}
    (h : parseTreeFile item = .ok file) :
    validateTreeRelativePath file.relativePath = .ok () := by
  rw [parseTreeFile] at h
  split at h
  · simp only [bind_eq_ok] at h
    obtain ⟨path, -, _, hvalid, size, -, mtime, -, _, -, status, -, error, -, h⟩ := h
    obtain rfl := Except.ok.inj h
    exact hvalid
  · cases h

/-- The paths of an accepted manifest are valid, and no two are the same. -/
theorem paths_of_parsed {text : Bytes} {manifest : TreeManifest}
    (h : parseTreeManifest text = .ok manifest) :
    (∀ file ∈ manifest.files, ValidTreePath file.relativePath) ∧
      (manifest.files.map TreeFileRecord.relativePath).Nodup := by
  simp only [parseTreeManifest, parseTreeFields, bind_eq_ok] at h
  obtain ⟨read, -, _, -, version, -, _, -, mode, -, root, -, algorithm, -, created, -, updated, -,
    files, hfiles, h⟩ := h
  obtain rfl := Except.ok.inj h
  simp only [parseFiles, bind_eq_ok, require_eq_ok] at hfiles
  obtain ⟨records, hrecords, _, hnodup, hsorted⟩ := hfiles
  obtain rfl := Except.ok.inj hsorted
  refine ⟨?_, hnodup⟩
  intro file hfile
  obtain ⟨item, -, hitem⟩ :=
    mem_of_mapM hrecords file ((sortedFiles_perm records).mem_iff.mp hfile)
  exact validTreePath (valid_of_parseTreeFile hitem)

theorem valid_of_remoteRelativePath {root path relative : Bytes}
    (h : remoteRelativePath root path = .ok relative) :
    validateTreeRelativePath relative = .ok () := by
  rw [remoteRelativePath] at h
  split at h
  · rw [bind_eq_ok] at h
    obtain ⟨_, hvalid, h⟩ := h
    obtain rfl := Except.ok.inj h
    exact hvalid
  · split at h
    · cases h
    split at h
    · cases h
    rw [bind_eq_ok] at h
    obtain ⟨_, hvalid, h⟩ := h
    obtain rfl := Except.ok.inj h
    exact hvalid

/-! ### Beneath the destination -/

theorem ValidTreePath.beneath {path : Bytes} (h : ValidTreePath path) (cwd : List Name)
    (root : Bytes) :
    StrictlyBeneath ((FsPath.parse root).lexicalLocation cwd) (treeLocation cwd root path) := by
  obtain ⟨names, hne, -, hloc⟩ := h.treeLocation_eq cwd root
  exact ⟨names, hne, hloc⟩

/-- **Accepted paths stay beneath the destination**: the validator's, and with
them those of the manifest parser and of the enumeration, whatever the
destination and the working directory are. -/
theorem acceptedPaths_beneath (cwd : List Name) (root : Bytes) :
    (∀ path, validateTreeRelativePath path = .ok () →
      StrictlyBeneath ((FsPath.parse root).lexicalLocation cwd) (treeLocation cwd root path)) ∧
    (∀ text manifest, parseTreeManifest text = .ok manifest → ∀ file ∈ manifest.files,
      StrictlyBeneath ((FsPath.parse root).lexicalLocation cwd)
        (treeLocation cwd root file.relativePath)) ∧
    (∀ sourceDir path relative, remoteRelativePath sourceDir path = .ok relative →
      StrictlyBeneath ((FsPath.parse root).lexicalLocation cwd)
        (treeLocation cwd root relative)) := by
  refine ⟨?_, ?_, ?_⟩
  · intro path h
    exact (validTreePath h).beneath cwd root
  · intro text manifest h file hfile
    exact ((paths_of_parsed h).1 file hfile).beneath cwd root
  · intro sourceDir path relative h
    exact (validTreePath (valid_of_remoteRelativePath h)).beneath cwd root

/-! ### Distinct files -/

theorem ValidTreePath.treeLocation_eq_iff {path path' : Bytes} (h : ValidTreePath path)
    (h' : ValidTreePath path') (cwd : List Name) (root : Bytes) :
    treeLocation cwd root path = treeLocation cwd root path' ↔
      squeeze slash path = squeeze slash path' := by
  obtain ⟨names, -, hval, hloc⟩ := h.treeLocation_eq cwd root
  obtain ⟨names', -, hval', hloc'⟩ := h'.treeLocation_eq cwd root
  rw [squeeze_eq_squeeze_iff slash h.head h.last h'.head h'.last, hloc, hloc',
    List.append_cancel_left_eq]
  show names = names' ↔ segments path = segments path'
  rw [← hval, ← hval']
  constructor
  · exact congrArg (List.map Subtype.val)
  · intro heq
    exact List.map_injective_iff.mpr Subtype.val_injective heq

/-- Maps that identify the same elements of a list keep it free of repetitions
together. -/
theorem nodup_map_iff {α β γ : Type} {f : α → β} {g : α → γ} {xs : List α}
    (h : ∀ x ∈ xs, ∀ y ∈ xs, f x = f y ↔ g x = g y) : (xs.map f).Nodup ↔ (xs.map g).Nodup := by
  rw [List.nodup_iff_pairwise_ne, List.nodup_iff_pairwise_ne, List.pairwise_map, List.pairwise_map]
  constructor
  · intro hpairs
    exact hpairs.imp_of_mem fun hx hy hne heq => hne ((h _ hx _ hy).mpr heq)
  · intro hpairs
    exact hpairs.imp_of_mem fun hx hy hne heq => hne ((h _ hx _ hy).mp heq)

/-- **Distinct files.**  The records of an accepted manifest lead to pairwise
different places exactly if their paths stay different when every run of
slashes is written as one. -/
theorem distinctLocations_iff {text : Bytes} {manifest : TreeManifest}
    (h : parseTreeManifest text = .ok manifest) (cwd : List Name) (root : Bytes) :
    (manifest.files.map fun file => treeLocation cwd root file.relativePath).Nodup ↔
      (manifest.files.map fun file => squeeze slash file.relativePath).Nodup := by
  have hvalid := (paths_of_parsed h).1
  apply nodup_map_iff
  intro file hfile file' hfile'
  exact (hvalid file hfile).treeLocation_eq_iff (hvalid file' hfile') cwd root

/-! ### Two spellings of one path -/

/-- The text of a manifest of the given paths. -/
def textOfPaths (paths : List Bytes) : Bytes :=
  withBodyChecksum (bodyWithoutChecksum (treeOfPaths paths))

theorem parse_textOfPaths {paths : List Bytes}
    (hvalid : ∀ path ∈ paths, validateTreeRelativePath path = .ok ())
    (hnodup : ((treeOfPaths paths).files.map TreeFileRecord.relativePath).Nodup)
    (hsorted : sortedFiles (treeOfPaths paths).files = (treeOfPaths paths).files) :
    parseTreeManifest (textOfPaths paths) = .ok (treeOfPaths paths) := by
  rw [textOfPaths, parseTreeManifest_serialized (treeOfPaths_fits paths)
    (serialize_treeOfPaths hvalid), if_pos hnodup, hsorted]

theorem acceptedPaths_beneath_oneFile :
    StrictlyBeneath ((FsPath.parse (ascii "d/")).lexicalLocation [])
        (treeLocation [] (ascii "d/") (ascii "a//b")) ∧
    StrictlyBeneath ((FsPath.parse (ascii "d/")).lexicalLocation [])
        (treeLocation [] (ascii "d/") (ascii "a")) ∧
    StrictlyBeneath ((FsPath.parse (ascii "d/")).lexicalLocation [])
        (treeLocation [] (ascii "d/") (ascii "x")) :=
  ⟨(acceptedPaths_beneath [] (ascii "d/")).1 (ascii "a//b") (by decide),
    (acceptedPaths_beneath [] (ascii "d/")).2.1 (textOfPaths [ascii "a"]) (treeOfPaths [ascii "a"])
      (parse_textOfPaths (by decide) (by decide) rfl)
      ⟨ascii "a", 3, -1, ascii "t", .failed, ascii "e"⟩ List.mem_cons_self,
    (acceptedPaths_beneath [] (ascii "d/")).2.2 (ascii "s") (ascii "s/x") (ascii "x") (by decide)⟩

theorem distinctLocations_two :
    ((treeOfPaths [ascii "a", ascii "a/b"]).files.map
        fun file => treeLocation [] (ascii "/d") file.relativePath).Nodup ↔
      ((treeOfPaths [ascii "a", ascii "a/b"]).files.map
        fun file => squeeze slash file.relativePath).Nodup :=
  @distinctLocations_iff (textOfPaths [ascii "a", ascii "a/b"]) _
    (parse_textOfPaths (by decide) (by decide) (by decide)) [] (ascii "/d")

/-- `a//b` and `a/b` are accepted in one manifest, and are one file. -/
theorem distinctLocations_doubleSlash :
    ∃ text manifest, parseTreeManifest text = .ok manifest ∧
      text = textOfPaths [ascii "a//b", ascii "a/b"] ∧
      ∃ file ∈ manifest.files, ∃ file' ∈ manifest.files,
        file.relativePath ≠ file'.relativePath ∧
        treeLocation [] (ascii "/d") file.relativePath =
          treeLocation [] (ascii "/d") file'.relativePath := by
  refine ⟨_, treeOfPaths [ascii "a//b", ascii "a/b"],
    parse_textOfPaths (by decide) (by decide) (by decide), rfl, ?_⟩
  refine ⟨_, List.mem_cons_self, _, List.mem_cons_of_mem _ List.mem_cons_self, by decide, ?_⟩
  apply (ValidTreePath.treeLocation_eq_iff (validTreePath (by decide)) (validTreePath (by decide))
    [] (ascii "/d")).mpr
  rfl

end GridFlux
