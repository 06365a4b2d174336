/-
GridFlux/Filesystem.lean

The functions of `std::filesystem` that the path checks call, over a tree of
byte-string names.  Each follows libstdc++ on POSIX; a path is kept as its
elements, so empty elements and `.` are gone once it has been read.  System
calls would stop at a NUL byte; a path that holds one is not treated apart.

Main results: the text of a path reads back (`parse_text`), a location that a
walk has found is its own canonical path (`weaklyCanonical_ofLocation`), and
the relative path between two locations climbs exactly if the one is not above
the other (`lexicallyRelative_ofLocation`).
-/
import GridFlux.FileTree
import GridFlux.Text

namespace FileTree

open TextCodec

variable {N : Type*}

/-! ### Paths and their text -/

/-- What can name an entry of a directory. -/
abbrev Name := {text : List UInt8 // text ≠ [] ∧ 47 ∉ text ∧ text ≠ [46] ∧ text ≠ [46, 46]}

def partText : PathPart Name → List UInt8
  | .up => [46, 46]
  | .name n => n.val

def partOf (piece : List UInt8) : Option (PathPart Name) :=
  if hup : piece = [46, 46] then some .up
  else if h : piece ≠ [] ∧ 47 ∉ piece ∧ piece ≠ [46] then
    some (.name ⟨piece, h.1, h.2.1, h.2.2, hup⟩)
  else none

@[simp] theorem partOf_partText (part : PathPart Name) : partOf (partText part) = some part := by
  cases part with
  | up => rfl
  | name n =>
      obtain ⟨hne, hslash, hdot, hup⟩ := n.property
      rw [partOf, dif_neg (show ¬partText (.name n) = [46, 46] from hup),
        dif_pos ⟨hne, hslash, hdot⟩]
      rfl

theorem partText_separated (part : PathPart Name) : 47 ∉ partText part ∧ partText part ≠ [] := by
  cases part with
  | up => decide
  | name n => exact ⟨n.property.2.1, n.property.1⟩

namespace FsPath

def parse (text : List UInt8) : FsPath Name :=
  ⟨text.head? == some 47, (pieces 47 text).filterMap partOf⟩

/-- `generic_string`. -/
def text (p : FsPath Name) : List UInt8 :=
  if p.absolute then 47 :: join 47 (p.parts.map partText) else join 47 (p.parts.map partText)

theorem head_join (parts : List (PathPart Name)) :
    ((join 47 (parts.map partText)).head? == some 47) = false := by
  rcases parts with - | ⟨part, rest⟩
  · rfl
  · obtain ⟨hslash, hne⟩ := partText_separated part
    obtain ⟨x, xs, hx⟩ := List.exists_cons_of_ne_nil hne
    have hhead : x ≠ 47 := by
      rintro rfl
      exact hslash (by rw [hx]; simp)
    rcases rest with - | ⟨next, rest⟩ <;> simp [join, hx, hhead]

/-- A path's text reads back. -/
theorem parse_text (p : FsPath Name) : parse p.text = p := by
  obtain ⟨absolute, parts⟩ := p
  have hpieces : pieces 47 (join 47 (parts.map partText)) = parts.map partText := by
    apply pieces_join
    intro piece hpiece
    obtain ⟨part, -, rfl⟩ := List.mem_map.mp hpiece
    exact partText_separated part
  have hparts : (parts.map partText).filterMap partOf = parts := by
    rw [List.filterMap_map]
    calc parts.filterMap (partOf ∘ partText) = parts.filterMap some :=
          congrArg (parts.filterMap ·) (funext partOf_partText)
      _ = parts := List.filterMap_some
  cases absolute with
  | true =>
      have hroot : pieces 47 (47 :: join 47 (parts.map partText)) =
          [] :: parts.map partText := by
        rw [pieces, if_pos rfl, hpieces]
      simp only [text, parse, if_true, hroot]
      rw [List.filterMap_cons_none (by rfl), hparts]
      rfl
  | false => simp only [text, parse, head_join, hpieces, hparts, Bool.false_eq_true, if_false]

/-- The elements of two texts with a separator between them. -/
theorem elements_append (p rest : List UInt8) :
    (pieces 47 (p ++ 47 :: rest)).filterMap partOf =
      (pieces 47 p).filterMap partOf ++ (pieces 47 rest).filterMap partOf := by
  induction hlength : p.length using Nat.strong_induction_on generalizing p with
  | h length ih =>
      rcases hsplit : splitFirst 47 p with - | ⟨first, more⟩
      · have hp : 47 ∉ p := splitFirst_eq_none.mp hsplit
        rw [pieces_append_sep 47 hp]
        by_cases hne : p = []
        · rw [hne]
          rfl
        · rw [pieces_of_notMem 47 hp hne, ← List.filterMap_append]
          rfl
      · obtain ⟨rfl, hfirst⟩ := splitFirst_eq_some.mp hsplit
        have hmore : more.length < length := by
          rw [← hlength, List.length_append, List.length_cons]
          exact Nat.lt_add_left _ (Nat.lt_succ_self _)
        rw [List.append_assoc, List.cons_append, pieces_append_sep 47 hfirst,
          pieces_append_sep 47 hfirst, List.filterMap_cons, List.filterMap_cons,
          ih more.length hmore more rfl]
        cases partOf first with
        | none => rfl
        | some part => rfl

/-- `operator/`: an absolute right side replaces the left one. -/
def append (p q : FsPath N) : FsPath N :=
  if q.absolute then q else ⟨p.absolute, p.parts ++ q.parts⟩

def parentPath (p : FsPath N) : FsPath N := ⟨p.absolute, p.parts.dropLast⟩

/-- One element more on a path in normal form. -/
def normalStep (absolute : Bool) (done : List (PathPart N)) : PathPart N → List (PathPart N)
  | .name n => done ++ [.name n]
  | .up =>
      match done.getLast? with
      | some (.name _) => done.dropLast
      | some .up => done ++ [.up]
      | none => if absolute then [] else [.up]

def lexicallyNormal (p : FsPath N) : FsPath N :=
  ⟨p.absolute, p.parts.foldl (normalStep p.absolute) []⟩

/-- The path that spells a location out. -/
def ofLocation (loc : List N) : FsPath N := ⟨true, loc.map .name⟩

/-! ### The relative path -/

section Relative

variable [DecidableEq N]

def dropCommon : List (PathPart N) → List (PathPart N) → List (PathPart N) × List (PathPart N)
  | a :: as, b :: bs => if a = b then dropCommon as bs else (a :: as, b :: bs)
  | as, bs => (as, bs)

def depth : List (PathPart N) → Int
  | [] => 0
  | .up :: rest => depth rest - 1
  | .name _ :: rest => depth rest + 1

/-- Climb out of the elements `b`, then go down along `a`. -/
def climb (a b : List (PathPart N)) : Option (List (PathPart N)) :=
  if depth b = 0 ∧ a = [] then some []
  else if 0 ≤ depth b then some (List.replicate (depth b).toNat .up ++ a)
  else none

/-- `lexically_relative`; an empty result is `none`, and `.` has no elements. -/
def lexicallyRelative (p base : FsPath N) : Option (List (PathPart N)) :=
  if p.absolute = base.absolute then
    climb (dropCommon p.parts base.parts).1 (dropCommon p.parts base.parts).2
  else none

omit [DecidableEq N] in
theorem depth_names (names : List N) : depth (names.map .name) = names.length := by
  induction names with
  | nil => rfl
  | cons n rest ih => simp [depth, ih]

omit [DecidableEq N] in
theorem up_mem_of_climb {a parts : List (PathPart N)} {b : N} {names : List N}
    (h : climb a ((b :: names).map .name) = some parts) : .up ∈ parts := by
  rw [climb, depth_names, if_neg (by simp; omega), if_pos (by omega)] at h
  obtain rfl := Option.some.inj h
  simp

omit [DecidableEq N] in
theorem climb_nil (names : List N) :
    ∃ parts, climb (names.map .name) [] = some parts ∧ .up ∉ parts := by
  refine ⟨names.map .name, ?_, by simp⟩
  rw [climb]
  split
  · rename_i h
    rw [h.2]
  · rfl

/-- Between locations, the relative path climbs unless the one is above the
other. -/
theorem lexicallyRelative_ofLocation (loc base : List N) :
    (∃ parts, lexicallyRelative (ofLocation loc) (ofLocation base) = some parts ∧
      .up ∉ parts) ↔ base <+: loc := by
  simp only [lexicallyRelative, ofLocation, if_true]
  induction base generalizing loc with
  | nil =>
      have hdrop : dropCommon (loc.map (PathPart.name (N := N))) [] = (loc.map .name, []) := by
        cases loc <;> rfl
      rw [List.map_nil, hdrop]
      exact iff_of_true (climb_nil loc) List.nil_prefix
  | cons b base ih =>
      rcases loc with - | ⟨a, loc⟩
      · apply iff_of_false
        · rintro ⟨parts, hparts, hup⟩
          exact hup (up_mem_of_climb hparts)
        · simp
      · by_cases hab : a = b
        · subst hab
          simp only [List.map_cons, dropCommon, if_true, List.cons_prefix_cons, true_and]
          exact ih loc
        · apply iff_of_false
          · rintro ⟨parts, hparts, hup⟩
            simp only [List.map_cons, dropCommon, PathPart.name.injEq, hab, if_false] at hparts
            exact hup (up_mem_of_climb hparts)
          · intro hpre
            exact hab (List.cons_prefix_cons.mp hpre).1.symm

end Relative

end FsPath

/-! ### What the system says about a path -/

/-- How many links the system follows. -/
def linkLimit : Nat := 40

/-- The error says that there is nothing at the path. -/
def Errno.isNotFound : Errno → Bool
  | .noEntry => true
  | .notDirectory => true
  | _ => false

namespace FsTree

/-- Where a path leads for a process in the directory `cwd`.  A current
directory that has been removed finds nothing. -/
def status (t : FsTree N) (cwd : List N) (p : FsPath N) : Except Errno (List N) :=
  if p.absolute then t.walk linkLimit [] p.parts
  else if t.isDirectory cwd then t.walk linkLimit cwd p.parts
  else .error .noEntry

/-- `exists`.  It is false with the error code set where the system cannot tell;
every caller treats this like a plain false. -/
def pathExists (t : FsTree N) (cwd : List N) (p : FsPath N) : Bool :=
  match t.status cwd p with
  | .ok _ => true
  | .error _ => false

def isDirectoryPath (t : FsTree N) (cwd : List N) (p : FsPath N) : Bool :=
  match t.status cwd p with
  | .ok loc => t.isDirectory loc
  | .error _ => false

def isRegular (t : FsTree N) (loc : List N) : Bool :=
  match t.entry loc with
  | some (.file regular) => regular
  | _ => false

def isRegularFile (t : FsTree N) (cwd : List N) (p : FsPath N) : Bool :=
  match t.status cwd p with
  | .ok loc => t.isRegular loc
  | .error _ => false

/-- `canonical`, for a path that exists. -/
def canonical (t : FsTree N) (cwd : List N) (p : FsPath N) : Except Errno (List N) :=
  if p.absolute then t.walk linkLimit [] p.parts
  else if t.isDirectory cwd then t.walk linkLimit [] (cwd.map .name ++ p.parts)
  else .error .noEntry

/-- The leading elements of a path that exist, and the others. -/
def leading (t : FsTree N) (cwd : List N) (absolute : Bool) :
    List (PathPart N) → List (PathPart N) → Except Errno (List (PathPart N) × List (PathPart N))
  | done, [] => .ok (done, [])
  | done, part :: rest =>
      match t.status cwd ⟨absolute, done ++ [part]⟩ with
      | .ok _ => leading t cwd absolute (done ++ [part]) rest
      | .error e => if e.isNotFound then .ok (done, part :: rest) else .error e

def weaklyCanonical (t : FsTree N) (cwd : List N) (p : FsPath N) : Except Errno (FsPath N) :=
  match t.status cwd p with
  | .ok _ => (t.canonical cwd p).map FsPath.ofLocation
  | .error e =>
      if e.isNotFound then
        match t.leading cwd p.absolute [] p.parts with
        | .error e => .error e
        | .ok (done, rest) =>
            if done.isEmpty && !p.absolute then .ok (FsPath.lexicallyNormal ⟨false, rest⟩)
            else
              (t.canonical cwd ⟨p.absolute, done⟩).map fun loc =>
                ((FsPath.ofLocation loc).append ⟨false, rest⟩).lexicallyNormal
      else .error e

/-- `relative`. -/
def relative [DecidableEq N] (t : FsTree N) (cwd : List N) (p base : FsPath N) :
    Except Errno (Option (List (PathPart N))) :=
  match t.weaklyCanonical cwd p with
  | .error e => .error e
  | .ok p =>
      match t.weaklyCanonical cwd base with
      | .error e => .error e
      | .ok base => .ok (p.lexicallyRelative base)

def createDirectories [DecidableEq N] (t : FsTree N) (cwd : List N) (p : FsPath N) :
    Except Errno Unit × FsTree N :=
  if p.absolute then createFrom linkLimit [] t [] p.parts
  else if t.isDirectory cwd then createFrom linkLimit cwd t [] p.parts
  else (.error .noEntry, t)

/-! ### Locations that have been found -/

/-- There is an entry at the location, and it can be reached from the root. -/
structure Found (t : FsTree N) (loc : List N) : Prop where
  entry : t.entry loc = some .directory ∨ ∃ regular, t.entry loc = some (.file regular)
  enterable : t.Enterable loc

variable {t t' : FsTree N} {cwd loc : List N}

theorem found_of_walk {links : Nat} {parts : List (PathPart N)}
    (h : t.walk links [] parts = .ok loc) : t.Found loc :=
  ⟨t.walk_entry links [] parts t.root h, t.walk_enterable links [] parts t.enterable_nil h⟩

theorem found_of_canonical {p : FsPath N} (h : t.canonical cwd p = .ok loc) : t.Found loc := by
  rw [canonical] at h
  split at h
  · exact found_of_walk h
  · split at h
    · exact found_of_walk h
    · cases h

theorem Found.mono (h : t.Found loc) (hgrows : t.Extends t') : t'.Found loc := by
  constructor
  · rcases h.entry with hentry | ⟨regular, hentry⟩
    · exact Or.inl (hgrows.entry _ _ hentry)
    · exact Or.inr ⟨regular, hgrows.entry _ _ hentry⟩
  · intro above n hpre
    rw [hgrows.mayEnter]
    exact h.enterable above n hpre

theorem Found.walk (h : t.Found loc) (links : Nat) :
    t.walk links [] (loc.map .name) = .ok loc := by
  rw [walk_spelled links (by simpa using h.entry) (by simpa using h.enterable), List.nil_append]

theorem Found.status (h : t.Found loc) : t.status cwd (FsPath.ofLocation loc) = .ok loc :=
  h.walk linkLimit

/-- Where an absolute path leads is its canonical path. -/
theorem weaklyCanonical_of_status {p : FsPath N} (habsolute : p.absolute = true)
    (h : t.status cwd p = .ok loc) : t.weaklyCanonical cwd p = .ok (FsPath.ofLocation loc) := by
  have hcanonical : t.canonical cwd p = .ok loc := by
    rw [status, if_pos habsolute] at h
    rw [canonical, if_pos habsolute, h]
  rw [weaklyCanonical, h, hcanonical]
  rfl

/-- A location that has been found is its own canonical path. -/
theorem Found.weaklyCanonical (h : t.Found loc) :
    t.weaklyCanonical cwd (FsPath.ofLocation loc) = .ok (FsPath.ofLocation loc) :=
  weaklyCanonical_of_status rfl h.status

end FsTree

end FileTree
