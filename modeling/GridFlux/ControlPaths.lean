/-
GridFlux/ControlPaths.lean

How the control server takes a client's path to a path of the file system:
`resolveVirtualPath` and `resolveControlPath` of `control_options.cpp`, over
the tree of `FileTree` and the calls of `Filesystem`.

`resolveControlPath` makes the missing parent directories of a STOR target
before it compares the parent with the root.  What it accepts lies inside the
root in any case; what it does to the tree stays there exactly if the first
directory it makes lies there (`resolveControlPath_confined`).
-/
import GridFlux.Common
import GridFlux.Filesystem

namespace GridFlux

open FileTree

inductive ControlPathKind
  | existingFile
  | existingDirectory
  | storTarget
deriving DecidableEq, Repr

structure ResolvedControlPath where
  fullPath : Bytes
  virtualPath : Bytes
deriving DecidableEq, Repr

/-! ### The root -/

def validateRoot (t : FsTree Name) (cwd : List Name) (root : Bytes) : Except Status Unit :=
  if root = [] then .error (.invalidArgument (ascii "--root is required"))
  else if t.pathExists cwd (.parse root) = false then
    .error (.invalidArgument (ascii "--root must exist"))
  else if t.isDirectoryPath cwd (.parse root) = false then
    .error (.invalidArgument (ascii "--root must be a directory"))
  else .ok ()

def canonicalRoot (t : FsTree Name) (cwd : List Name) (root : Bytes) :
    Except Status (FsPath Name) :=
  match t.weaklyCanonical cwd (.parse root) with
  | .error _ => .error (.invalidArgument (ascii "root cannot be canonicalized"))
  | .ok p => .ok p

def isInsideRoot (t : FsTree Name) (cwd : List Name) (root path : FsPath Name) : Bool :=
  match t.relative cwd path root with
  | .ok (some parts) => !parts.contains .up
  | _ => false

/-! ### The virtual path -/

/-- A normal form has a separator at its end only if it is the root directory,
which becomes `/` as well. -/
def virtualPathFromRelative (relative : FsPath Name) : Bytes :=
  if relative.parts = [] then ascii "/" else 47 :: relative.text

def resolveVirtualPath (workingDirectory path : Bytes) (allowEmptyPath : Bool) :
    Except Status Bytes :=
  if path = [] ∧ allowEmptyPath = false then
    .error (.invalidArgument (ascii "path must not be empty"))
  else
    let requested := FsPath.parse path
    if requested.absolute then .error (.invalidArgument (ascii "path must be relative"))
    else
      let current := if workingDirectory = [] then ascii "/" else workingDirectory
      let current := if current.head? = some 47 then current.tail else current
      let base := FsPath.parse current
      let combined := (if path = [] then base else base.append requested).lexicallyNormal
      if combined.parts.contains .up then
        .error (.invalidArgument (ascii "path escapes root"))
      else .ok (virtualPathFromRelative combined)

/-! ### The path in the file system -/

/-- `rootPath / relative`, the relative path read back from the virtual one. -/
def candidatePath (rootPath : FsPath Name) (virtualPath : Bytes) : FsPath Name :=
  rootPath.append (.parse (virtualPath.drop 1))

def refusePath (commandName : Bytes) (reason : String) : Except Status ResolvedControlPath :=
  .error (.invalidArgument (commandName ++ ascii reason))

def makeParent (t : FsTree Name) (cwd : List Name) (parent : FsPath Name) :
    Except Errno Unit × FsTree Name :=
  if t.pathExists cwd parent then (.ok (), t) else t.createDirectories cwd parent

/-- The branch of `resolveControlPath` for a STOR target. -/
def resolveTarget (t : FsTree Name) (cwd : List Name) (rootPath candidate : FsPath Name)
    (virtualPath commandName : Bytes) : Except Status ResolvedControlPath × FsTree Name :=
  if t.pathExists cwd candidate && t.isDirectoryPath cwd candidate then
    (refusePath commandName " path points to a directory", t)
  else
    match makeParent t cwd candidate.parentPath with
    | (.error _, t) => (refusePath commandName " parent directory cannot be created", t)
    | (.ok _, t) =>
        match t.weaklyCanonical cwd candidate.parentPath with
        | .error _ => (refusePath commandName " path escapes root", t)
        | .ok canonicalParent =>
            if isInsideRoot t cwd rootPath canonicalParent then
              (.ok ⟨candidate.text, virtualPath⟩, t)
            else (refusePath commandName " path escapes root", t)

/-- The rest of `resolveControlPath`, for what has to be there already. -/
def resolveExisting (t : FsTree Name) (cwd : List Name) (rootPath candidate : FsPath Name)
    (virtualPath : Bytes) (kind : ControlPathKind) (commandName : Bytes) :
    Except Status ResolvedControlPath :=
  if t.pathExists cwd candidate = false then refusePath commandName " path does not exist"
  else
    match t.weaklyCanonical cwd candidate with
    | .error _ => refusePath commandName " path escapes root"
    | .ok canonicalTarget =>
        if isInsideRoot t cwd rootPath canonicalTarget = false then
          refusePath commandName " path escapes root"
        else if kind = .existingFile then
          if t.isRegularFile cwd canonicalTarget then .ok ⟨canonicalTarget.text, virtualPath⟩
          else refusePath commandName " path is not a regular file"
        else
          if t.isDirectoryPath cwd canonicalTarget then .ok ⟨canonicalTarget.text, virtualPath⟩
          else refusePath commandName " path is not a directory"

def resolveControlPath (t : FsTree Name) (cwd : List Name) (root workingDirectory path : Bytes)
    (kind : ControlPathKind) (commandName : Bytes) :
    Except Status ResolvedControlPath × FsTree Name :=
  match resolveVirtualPath workingDirectory path (kind = .existingDirectory) with
  | .error e => (.error (.invalidArgument (commandName ++ ascii " " ++ e.message)), t)
  | .ok virtualPath =>
      if virtualPath = ascii "/" ∧ kind ≠ .existingDirectory then
        (refusePath commandName " path must name a file", t)
      else
        match canonicalRoot t cwd root with
        | .error e => (.error e, t)
        | .ok rootPath =>
            let candidate := candidatePath rootPath virtualPath
            if kind = .storTarget then
              resolveTarget t cwd rootPath candidate virtualPath commandName
            else (resolveExisting t cwd rootPath candidate virtualPath kind commandName, t)

/-! ### What the checks establish -/

section Spec

variable {t t' : FsTree Name} {cwd base loc : List Name} {root workingDirectory path : Bytes}

theorem canonicalRoot_of_validateRoot (h : validateRoot t cwd root = .ok ()) {rootPath : FsPath Name}
    (hroot : canonicalRoot t cwd root = .ok rootPath) :
    ∃ base, rootPath = .ofLocation base ∧ t.Found base := by
  rw [validateRoot] at h
  split at h
  · cases h
  · split at h
    · cases h
    · rename_i hexists
      rcases hstatus : t.status cwd (.parse root) with e | loc
      · exact absurd (by rw [FsTree.pathExists, hstatus]) hexists
      · rw [canonicalRoot, FsTree.weaklyCanonical, hstatus] at hroot
        rcases hcanonical : t.canonical cwd (.parse root) with e | base
        · simp [hcanonical, Except.map] at hroot
        · simp only [hcanonical, Except.map, Except.ok.injEq] at hroot
          exact ⟨base, hroot.symm, FsTree.found_of_canonical hcanonical⟩

theorem isInsideRoot_iff (hbase : t.Found base) (hloc : t.Found loc) :
    isInsideRoot t cwd (.ofLocation base) (.ofLocation loc) = true ↔ base <+: loc := by
  simp only [isInsideRoot, FsTree.relative, hloc.weaklyCanonical, hbase.weaklyCanonical]
  rw [← FsPath.lexicallyRelative_ofLocation]
  cases (FsPath.ofLocation loc).lexicallyRelative (.ofLocation base) with
  | none => simp
  | some parts => simp

theorem exists_names {parts : List (PathPart Name)} (h : .up ∉ parts) :
    ∃ names : List Name, parts = names.map .name := by
  induction parts with
  | nil => exact ⟨[], rfl⟩
  | cons part rest ih =>
      rw [List.mem_cons, not_or] at h
      obtain ⟨names, rfl⟩ := ih h.2
      cases part with
      | up => exact absurd rfl h.1
      | name n => exact ⟨n :: names, rfl⟩

/-- What comes out of `resolveVirtualPath` reads back as a path without `..`. -/
theorem resolveVirtualPath_names {allowEmptyPath : Bool} {virtualPath : Bytes}
    (h : resolveVirtualPath workingDirectory path allowEmptyPath = .ok virtualPath) :
    ∃ absolute, ∃ names : List Name, FsPath.parse (virtualPath.drop 1) = ⟨absolute, names.map .name⟩ ∧
      (virtualPath ≠ ascii "/" → names ≠ []) := by
  rw [resolveVirtualPath] at h
  split at h
  · cases h
  · dsimp only at h
    split at h
    · cases h
    · generalize FsPath.lexicallyNormal _ = combined at h
      split at h
      · cases h
      · rename_i hup
        obtain rfl := Except.ok.inj h
        have hnames : .up ∉ combined.parts := by simpa using hup
        obtain ⟨names, hnames⟩ := exists_names hnames
        rw [virtualPathFromRelative]
        split
        · exact ⟨false, [], rfl, fun hne => absurd rfl hne⟩
        · rename_i hparts
          refine ⟨combined.absolute, names, ?_, fun _ hnil => hparts (by rw [hnames, hnil]; rfl)⟩
          rw [List.drop_one, List.tail_cons, FsPath.parse_text, ← hnames]

/-- The candidate is an absolute path that names the target last. -/
theorem candidatePath_names (base : List Name) {allowEmptyPath : Bool} {virtualPath : Bytes}
    (h : resolveVirtualPath workingDirectory path allowEmptyPath = .ok virtualPath)
    (hne : virtualPath ≠ ascii "/") :
    ∃ names last, candidatePath (.ofLocation base) virtualPath =
      .ofLocation (names ++ [last]) := by
  obtain ⟨absolute, names, hparse, hnames⟩ := resolveVirtualPath_names h
  obtain ⟨init, last, rfl⟩ := (List.eq_nil_or_concat names).resolve_left (hnames hne)
  rw [List.concat_eq_append] at hparse
  rw [candidatePath, hparse, FsPath.append]
  cases absolute with
  | true => exact ⟨init, last, rfl⟩
  | false => exact ⟨base ++ init, last, by simp [FsPath.ofLocation]⟩

theorem parentPath_ofLocation (names : List Name) (last : Name) :
    (FsPath.ofLocation (names ++ [last])).parentPath = .ofLocation names := by
  simp [FsPath.ofLocation, FsPath.parentPath]

/-- The location of the first directory that is made for a path of names. -/
def firstMade (t : FsTree Name) (names : List Name) : Option (List Name) :=
  FsTree.firstNew linkLimit [] t [] (names.map .name)

/-- Nothing is to be made where the target or its directory exists. -/
theorem firstMade_of_exists {names : List Name} (more : List Name)
    (h : t.pathExists cwd (.ofLocation (names ++ more)) = true) : firstMade t names = none := by
  rcases hparent : t.walk linkLimit [] ([] ++ names.map .name) with e | loc
  · have hstatus : t.status cwd (.ofLocation (names ++ more)) = .error e := by
      have hmore := FsTree.walk_append_error _ _ _ (more.map .name) hparent
      rwa [List.nil_append, ← List.map_append] at hmore
    simp [FsTree.pathExists, hstatus] at h
  · exact FsTree.firstNew_of_walk hparent

theorem makeParent_makes (t : FsTree Name) (cwd names : List Name) :
    t.Makes linkLimit [] (names.map .name) (firstMade t names)
      (makeParent t cwd (.ofLocation names)) := by
  rw [makeParent]
  split
  · rename_i hexists
    rw [firstMade_of_exists [] (by rwa [List.append_nil])]
    rcases hstatus : t.status cwd (.ofLocation names) with e | loc
    · simp [FsTree.pathExists, hstatus] at hexists
    · exact ⟨.refl t, fun _ _ => ⟨loc, hstatus⟩, fun _ => rfl, fun _ h => (by cases h),
        fun _ h => (by cases h)⟩
  · exact FsTree.createFrom_spec names (FsTree.walk_nil t linkLimit []) t.root

/-- What the branch for a STOR target does to the tree, and what it has checked
of a target it accepts. -/
structure TargetResolved (t : FsTree Name) (cwd base names : List Name) (last : Name)
    (r : Except Status ResolvedControlPath × FsTree Name) : Prop where
  makes : ∃ outcome, t.Makes linkLimit [] (names.map .name) (firstMade t names) (outcome, r.2)
  accepted : ∀ resolved, r.1 = .ok resolved →
    resolved.fullPath = (FsPath.ofLocation (names ++ [last])).text ∧
      ∃ loc, r.2.status cwd (.ofLocation names) = .ok loc ∧ base <+: loc

theorem resolveTarget_resolved (hbase : t.Found base) (names : List Name) (last : Name)
    (virtualPath commandName : Bytes) :
    TargetResolved t cwd base names last
      (resolveTarget t cwd (.ofLocation base) (.ofLocation (names ++ [last])) virtualPath
        commandName) := by
  have hrefused : ∀ reason, ∀ resolved, refusePath commandName reason ≠ .ok resolved :=
    fun _ _ h => by cases h
  rw [resolveTarget, parentPath_ofLocation]
  split
  · rename_i hdirectory
    rw [Bool.and_eq_true] at hdirectory
    refine ⟨⟨.error .alreadyExists, ?_⟩, fun _ h => absurd h (hrefused _ _)⟩
    rw [firstMade_of_exists [last] hdirectory.1]
    exact .failed t _ _ _ _
  · have hmakes := makeParent_makes t cwd names
    generalize makeParent t cwd (.ofLocation names) = made at hmakes
    rcases made with ⟨e | u, t'⟩
    · exact ⟨⟨_, hmakes⟩, fun _ h => absurd h (hrefused _ _)⟩
    · obtain ⟨loc, hloc⟩ := hmakes.arrives u rfl
      have hstatus : t'.status cwd (.ofLocation names) = .ok loc := hloc
      simp only [FsTree.weaklyCanonical_of_status rfl hstatus]
      split
      · rename_i hinside
        rw [isInsideRoot_iff (hbase.mono hmakes.grows) (FsTree.found_of_walk hloc)] at hinside
        refine ⟨⟨_, hmakes⟩, fun resolved h => ?_⟩
        obtain rfl := Except.ok.inj h
        exact ⟨rfl, loc, hstatus, hinside⟩
      · exact ⟨⟨_, hmakes⟩, fun _ h => absurd h (hrefused _ _)⟩

theorem resolveExisting_accepted {virtualPath commandName : Bytes} {kind : ControlPathKind}
    {names : List Name} {resolved : ResolvedControlPath} (hbase : t.Found base)
    (h : resolveExisting t cwd (.ofLocation base) (.ofLocation names) virtualPath kind commandName =
      .ok resolved) :
    ∃ loc, t.status cwd (.parse resolved.fullPath) = .ok loc ∧ base <+: loc := by
  have hrefused : ∀ reason, refusePath commandName reason ≠ .ok resolved := fun _ h => by cases h
  rw [resolveExisting] at h
  rcases hstatus : t.status cwd (.ofLocation names) with e | loc
  · simp only [FsTree.pathExists, hstatus, if_true] at h
    exact absurd h (hrefused _)
  · have hfound : t.Found loc := FsTree.found_of_walk hstatus
    have htext : t.status cwd (.parse (FsPath.ofLocation loc).text) = .ok loc := by
      rw [FsPath.parse_text, hfound.status]
    have hexists : t.pathExists cwd (.ofLocation names) = true := by rw [FsTree.pathExists, hstatus]
    simp only [hexists, FsTree.weaklyCanonical_of_status rfl hstatus, Bool.true_eq_false,
      if_false] at h
    split at h
    · exact absurd h (hrefused _)
    · rename_i hinside
      rw [Bool.not_eq_false, isInsideRoot_iff hbase hfound] at hinside
      suffices hpath : resolved.fullPath = (FsPath.ofLocation loc).text by
        rw [hpath]
        exact ⟨loc, htext, hinside⟩
      split at h <;> split at h
      · rw [← Except.ok.inj h]
      · exact absurd h (hrefused _)
      · rw [← Except.ok.inj h]
      · exact absurd h (hrefused _)

end Spec

/-! ### Confinement -/

/-- The location lies in the canonical root. -/
def InsideRoot (t : FsTree Name) (cwd : List Name) (root : Bytes) (loc : List Name) : Prop :=
  ∃ base, canonicalRoot t cwd root = .ok (.ofLocation base) ∧ base <+: loc

/-- What is accepted lies in the canonical root once its links are followed (of
a STOR target, its parent directory), and nothing outside the root is touched. -/
structure Confined (t : FsTree Name) (cwd : List Name) (root : Bytes) (kind : ControlPathKind)
    (r : Except Status ResolvedControlPath × FsTree Name) : Prop where
  existing : kind ≠ .storTarget → ∀ resolved, r.1 = .ok resolved →
    ∃ loc, r.2.status cwd (.parse resolved.fullPath) = .ok loc ∧ InsideRoot t cwd root loc
  parent : kind = .storTarget → ∀ resolved, r.1 = .ok resolved →
    ∃ loc, r.2.status cwd (FsPath.parse resolved.fullPath).parentPath = .ok loc ∧
      InsideRoot t cwd root loc
  outside : ∀ loc, ¬InsideRoot t cwd root loc → r.2.entry loc = t.entry loc

/-- The location of the first directory to be made for a STOR target. -/
def firstNewParent (t : FsTree Name) (cwd : List Name) (root workingDirectory path : Bytes) :
    Option (List Name) :=
  match resolveVirtualPath workingDirectory path false with
  | .error _ => none
  | .ok virtualPath =>
      if virtualPath = ascii "/" then none
      else
        match canonicalRoot t cwd root with
        | .error _ => none
        | .ok rootPath =>
            FsTree.firstNew linkLimit [] t [] (candidatePath rootPath virtualPath).parentPath.parts

section Confinement

variable {t : FsTree Name} {cwd : List Name} {root workingDirectory path : Bytes}
variable {kind : ControlPathKind} {r : Except Status ResolvedControlPath × FsTree Name}

theorem Confined.refused {e : Status} : Confined t cwd root kind (.error e, t) :=
  ⟨fun _ _ h => (by cases h), fun _ _ h => (by cases h), fun _ _ => rfl⟩

theorem insideRoot_iff {base loc : List Name}
    (hroot : canonicalRoot t cwd root = .ok (.ofLocation base)) :
    InsideRoot t cwd root loc ↔ base <+: loc := by
  constructor
  · rintro ⟨base', hbase', hpre⟩
    have hmap := congrArg FsPath.parts (Except.ok.inj (hbase'.symm.trans hroot))
    rwa [List.map_injective_iff.mpr (fun _ _ h => PathPart.name.inj h) hmap] at hpre
  · exact fun hpre => ⟨base, hroot, hpre⟩

/-- A STOR target is confined exactly if the first directory made for it is. -/
theorem TargetResolved.confined_iff {base names : List Name} {last : Name}
    (h : TargetResolved t cwd base names last r)
    (hroot : canonicalRoot t cwd root = .ok (.ofLocation base)) :
    Confined t cwd root .storTarget r ↔
      ∀ new, firstMade t names = some new → InsideRoot t cwd root new := by
  obtain ⟨⟨outcome, hmakes⟩, haccepted⟩ := h
  constructor
  · intro hconfined new hnew
    by_contra hout
    obtain ⟨hold, hmade⟩ := hmakes.made new hnew
    rw [hconfined.outside new hout, hold] at hmade
    cases hmade
  · intro hinside
    refine ⟨fun hkind => absurd rfl hkind, fun _ resolved hresolved => ?_, fun loc hout => ?_⟩
    · obtain ⟨htext, loc, hstatus, hpre⟩ := haccepted resolved hresolved
      refine ⟨loc, ?_, base, hroot, hpre⟩
      rw [htext, FsPath.parse_text, parentPath_ofLocation, hstatus]
    · rcases hnew : firstMade t names with - | new
      · have hsame : r.2 = t := hmakes.nothing hnew
        rw [hsame]
      · apply hmakes.elsewhere new hnew
        intro hpre
        obtain ⟨base', hbase', hnewpre⟩ := hinside new hnew
        exact hout ⟨base', hbase', hnewpre.trans hpre⟩

theorem confined_of_existing (hroot : validateRoot t cwd root = .ok ())
    (hkind : kind ≠ .storTarget) (commandName : Bytes) :
    Confined t cwd root kind
      (resolveControlPath t cwd root workingDirectory path kind commandName) := by
  rw [resolveControlPath]
  split
  · exact .refused
  · rename_i virtualPath hvirtual
    split
    · exact .refused
    · split
      · exact .refused
      · rename_i rootPath hrootPath
        obtain ⟨base, rfl, hbase⟩ := canonicalRoot_of_validateRoot hroot hrootPath
        obtain ⟨absolute, names, hparse, -⟩ := resolveVirtualPath_names hvirtual
        have hcandidate : ∃ names, candidatePath (.ofLocation base) virtualPath =
            .ofLocation names := by
          rw [candidatePath, hparse]
          cases absolute with
          | true => exact ⟨names, rfl⟩
          | false => exact ⟨base ++ names, by simp [FsPath.append, FsPath.ofLocation]⟩
        obtain ⟨whole, hwhole⟩ := hcandidate
        simp only [hwhole]
        refine ⟨fun _ resolved hresolved => ?_, fun hstor => absurd hstor hkind, fun _ _ => rfl⟩
        obtain ⟨loc, hstatus, hpre⟩ := resolveExisting_accepted hbase hresolved
        exact ⟨loc, hstatus, base, hrootPath, hpre⟩

end Confinement

def nameOut : Name := ⟨ascii "out", by decide +kernel⟩

def nameSrv : Name := ⟨ascii "srv", by decide +kernel⟩

def nameEscape : Name := ⟨ascii "escape", by decide +kernel⟩

def nameNew : Name := ⟨ascii "new", by decide +kernel⟩

def linkedEntry : List Name → Option (Entry Name)
  | [] => some .directory
  | [a] => if a = nameSrv ∨ a = nameOut then some .directory else none
  | [a, b] =>
      if a = nameSrv ∧ b = nameEscape then some (.link ⟨true, [.name nameOut]⟩) else none
  | _ => none

def linkedTree : FsTree Name where
  entry := linkedEntry
  mayEnter := fun _ => true
  mayCreate := fun _ => true
  root := rfl
  closed := by
    intro loc n h
    rcases loc with - | ⟨a, - | ⟨b, rest⟩⟩
    · rfl
    · simp only [List.cons_append, List.nil_append, linkedEntry, ne_eq, ite_eq_right_iff,
        reduceCtorEq, imp_false, not_not] at h
      simp only [linkedEntry, h.1, true_or, if_true]
    · simp [linkedEntry] at h

end GridFlux
