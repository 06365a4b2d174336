/-
GridFlux/FileTree.lean

A file system with symbolic links, over any type of names.

A location is the list of names that leads to an entry from the root without
following a link; `FsTree` keeps its own well-formedness, so whatever has an entry
lies in a directory.  `walk` follows a path, links included, to a location.  The
number of links it follows is bounded, as in every kernel, so it is total.

`createFrom` makes the missing directories of a path.  Its specification
(`createFrom_spec`) is in terms of `firstNew`, the location of the first
directory it has to make: every entry it adds lies there or below.
-/
import Mathlib.Logic.Function.Basic
import Mathlib.Data.List.Basic
import Mathlib.Data.List.Infix

namespace FileTree

variable {N : Type*}

/-- One element of a path. -/
inductive PathPart (N : Type*)
  | up
  | name (n : N)
deriving DecidableEq, Repr

/-- A path: absolute, or from the current directory on. -/
structure FsPath (N : Type*) where
  absolute : Bool
  parts : List (PathPart N)
deriving DecidableEq, Repr

inductive Entry (N : Type*)
  | file (regular : Bool)
  | directory
  | link (target : FsPath N)
deriving DecidableEq, Repr

inductive Errno
  | noEntry
  | notDirectory
  | loop
  | denied
  | alreadyExists
deriving DecidableEq, Repr

/-- The entries by location, and what the process is allowed to do in a
directory. -/
structure FsTree (N : Type*) where
  entry : List N → Option (Entry N)
  mayEnter : List N → Bool
  mayCreate : List N → Bool
  root : entry [] = some .directory
  closed : ∀ loc n, entry (loc ++ [n]) ≠ none → entry loc = some .directory

namespace FsTree

def isDirectory (t : FsTree N) (loc : List N) : Bool :=
  match t.entry loc with
  | some .directory => true
  | _ => false

@[simp] theorem isDirectory_iff {t : FsTree N} {loc : List N} :
    t.isDirectory loc = true ↔ t.entry loc = some .directory := by
  rw [isDirectory]
  rcases t.entry loc with - | entry
  · simp
  · cases entry with
    | file regular => simp
    | directory => simp
    | link target => simp

/-- Everything above an entry is a directory. -/
theorem closed_append {t : FsTree N} {loc more : List N} (h : t.entry (loc ++ more) ≠ none)
    (hmore : more ≠ []) : t.entry loc = some .directory := by
  induction more using List.reverseRecOn with
  | nil => exact absurd rfl hmore
  | append_singleton more n ih =>
      rw [← List.append_assoc] at h
      have habove := t.closed _ _ h
      rcases List.eq_nil_or_concat more with rfl | ⟨init, last, rfl⟩
      · rwa [List.append_nil] at habove
      · exact ih (by rw [habove]; simp) (by simp)

/-! ### Following a path -/

/-- From a location through the elements of a path, with `follow` for the
rest of the way once there is a link. -/
def walkFrom (t : FsTree N) (follow : List N → List (PathPart N) → Except Errno (List N)) :
    List N → List (PathPart N) → Except Errno (List N)
  | loc, [] => .ok loc
  | loc, part :: rest =>
      if t.mayEnter loc = false then .error .denied
      else
        match part with
        | .up => walkFrom t follow loc.dropLast rest
        | .name n =>
            match t.entry (loc ++ [n]) with
            | none => .error .noEntry
            | some .directory => walkFrom t follow (loc ++ [n]) rest
            | some (.file _) =>
                match rest with
                | [] => .ok (loc ++ [n])
                | _ :: _ => .error .notDirectory
            | some (.link target) =>
                follow (if target.absolute then [] else loc) (target.parts ++ rest)

/-- The location a path leads to, following `links` links at most. -/
def walk (t : FsTree N) : Nat → List N → List (PathPart N) → Except Errno (List N)
  | 0 => t.walkFrom fun _ _ => .error .loop
  | links + 1 => t.walkFrom (t.walk links)

@[simp] theorem walk_nil (t : FsTree N) (links : Nat) (loc : List N) :
    t.walk links loc [] = .ok loc := by
  cases links with
  | zero => rfl
  | succ links => rfl

variable {t : FsTree N} {links : Nat} {start loc : List N} {n : N}

/-! The cases of a walk. -/

theorem walk_denied {part : PathPart N} {rest : List (PathPart N)} (h : t.mayEnter loc = false) :
    t.walk links loc (part :: rest) = .error .denied := by
  cases links <;> simp [walk, walkFrom, h]

theorem walk_up {rest : List (PathPart N)} (h : t.mayEnter loc = true) :
    t.walk links loc (.up :: rest) = t.walk links loc.dropLast rest := by
  cases links <;> simp [walk, walkFrom, h]

theorem walk_none {rest : List (PathPart N)} (h : t.mayEnter loc = true)
    (hentry : t.entry (loc ++ [n]) = none) :
    t.walk links loc (.name n :: rest) = .error .noEntry := by
  cases links <;> simp [walk, walkFrom, h, hentry]

theorem walk_directory {rest : List (PathPart N)} (h : t.mayEnter loc = true)
    (hentry : t.entry (loc ++ [n]) = some .directory) :
    t.walk links loc (.name n :: rest) = t.walk links (loc ++ [n]) rest := by
  cases links <;> simp [walk, walkFrom, h, hentry]

theorem walk_file {rest : List (PathPart N)} {regular : Bool} (h : t.mayEnter loc = true)
    (hentry : t.entry (loc ++ [n]) = some (.file regular)) :
    t.walk links loc (.name n :: rest) =
      if rest = [] then .ok (loc ++ [n]) else .error .notDirectory := by
  cases rest with
  | nil => cases links <;> simp [walk, walkFrom, h, hentry]
  | cons part rest => cases links <;> simp [walk, walkFrom, h, hentry]

theorem walk_loop {rest : List (PathPart N)} {target : FsPath N} (h : t.mayEnter loc = true)
    (hentry : t.entry (loc ++ [n]) = some (.link target)) :
    t.walk 0 loc (.name n :: rest) = .error .loop := by
  simp [walk, walkFrom, h, hentry]

theorem walk_link {rest : List (PathPart N)} {target : FsPath N} (h : t.mayEnter loc = true)
    (hentry : t.entry (loc ++ [n]) = some (.link target)) :
    t.walk (links + 1) loc (.name n :: rest) =
      t.walk links (if target.absolute then [] else loc) (target.parts ++ rest) := by
  simp [walk, walkFrom, h, hentry]

/-- **The induction over walks**: a property of results that holds where the
walk ends, passes over a directory, and is handed on at a link. -/
theorem walk_induction {motive : Nat → List N → List (PathPart N) → Prop}
    (hnil : ∀ links loc, motive links loc [])
    (hdenied : ∀ links loc part rest, t.mayEnter loc = false → motive links loc (part :: rest))
    (hup : ∀ links loc rest, t.mayEnter loc = true → motive links loc.dropLast rest →
      motive links loc (.up :: rest))
    (hnone : ∀ links loc n rest, t.mayEnter loc = true → t.entry (loc ++ [n]) = none →
      motive links loc (.name n :: rest))
    (hdirectory : ∀ links loc n rest, t.mayEnter loc = true →
      t.entry (loc ++ [n]) = some .directory → motive links (loc ++ [n]) rest →
      motive links loc (.name n :: rest))
    (hfile : ∀ links loc n rest regular, t.mayEnter loc = true →
      t.entry (loc ++ [n]) = some (.file regular) → motive links loc (.name n :: rest))
    (hloop : ∀ loc n rest target, t.mayEnter loc = true →
      t.entry (loc ++ [n]) = some (.link target) → motive 0 loc (.name n :: rest))
    (hlink : ∀ links loc n rest target, t.mayEnter loc = true →
      t.entry (loc ++ [n]) = some (.link target) →
      motive links (if target.absolute then [] else loc) (target.parts ++ rest) →
      motive (links + 1) loc (.name n :: rest)) :
    ∀ links loc parts, motive links loc parts := by
  intro links
  induction links with
  | zero =>
      intro loc parts
      induction parts generalizing loc with
      | nil => exact hnil 0 loc
      | cons part rest ih =>
          cases henter : t.mayEnter loc with
          | false => exact hdenied 0 loc part rest henter
          | true =>
              cases part with
              | up => exact hup 0 loc rest henter (ih _)
              | name n =>
                  rcases hentry : t.entry (loc ++ [n]) with - | ⟨regular | - | target⟩
                  · exact hnone 0 loc n rest henter hentry
                  · exact hfile 0 loc n rest regular henter hentry
                  · exact hdirectory 0 loc n rest henter hentry (ih _)
                  · exact hloop loc n rest target henter hentry
  | succ links ihlinks =>
      intro loc parts
      induction parts generalizing loc with
      | nil => exact hnil _ loc
      | cons part rest ih =>
          cases henter : t.mayEnter loc with
          | false => exact hdenied _ loc part rest henter
          | true =>
              cases part with
              | up => exact hup _ loc rest henter (ih _)
              | name n =>
                  rcases hentry : t.entry (loc ++ [n]) with - | ⟨regular | - | target⟩
                  · exact hnone _ loc n rest henter hentry
                  · exact hfile _ loc n rest regular henter hentry
                  · exact hdirectory _ loc n rest henter hentry (ih _)
                  · exact hlink links loc n rest target henter hentry (ihlinks _ _)

theorem entry_dropLast (h : t.entry loc = some .directory) :
    t.entry loc.dropLast = some .directory := by
  rcases List.eq_nil_or_concat loc with rfl | ⟨init, last, rfl⟩
  · exact h
  · rw [List.concat_eq_append] at h ⊢
    rw [List.dropLast_concat]
    exact t.closed init last (by rw [h]; simp)

/-- A walk from a directory ends at a directory or at a file. -/
theorem walk_entry (links : Nat) (start : List N) (parts : List (PathPart N))
    (hstart : t.entry start = some .directory) (h : t.walk links start parts = .ok loc) :
    t.entry loc = some .directory ∨ ∃ regular, t.entry loc = some (.file regular) := by
  induction links, start, parts using t.walk_induction with
  | hnil links start =>
      rw [walk_nil] at h
      obtain rfl := Except.ok.inj h
      exact Or.inl hstart
  | hdenied links start part rest henter =>
      rw [walk_denied henter] at h
      cases h
  | hup links start rest henter ih =>
      rw [walk_up henter] at h
      exact ih (entry_dropLast hstart) h
  | hnone links start n rest henter hentry =>
      rw [walk_none henter hentry] at h
      cases h
  | hdirectory links start n rest henter hentry ih =>
      rw [walk_directory henter hentry] at h
      exact ih hentry h
  | hfile links start n rest regular henter hentry =>
      rw [walk_file henter hentry] at h
      split at h
      · obtain rfl := Except.ok.inj h
        exact Or.inr ⟨regular, hentry⟩
      · cases h
  | hloop start n rest target henter hentry =>
      rw [walk_loop henter hentry] at h
      cases h
  | hlink links start n rest target henter hentry ih =>
      rw [walk_link henter hentry] at h
      apply ih _ h
      split
      · exact t.root
      · exact hstart

/-- A walk can be interrupted at a directory; what has been left of the links
depends on the way there. -/
theorem walk_append (links : Nat) (start : List N) (parts : List (PathPart N))
    (h : t.walk links start parts = .ok loc) (hloc : t.entry loc = some .directory) :
    ∃ left, ∀ more, t.walk links start (parts ++ more) = t.walk left loc more := by
  induction links, start, parts using t.walk_induction with
  | hnil links start =>
      rw [walk_nil] at h
      obtain rfl := Except.ok.inj h
      exact ⟨links, fun more => rfl⟩
  | hdenied links start part rest henter =>
      rw [walk_denied henter] at h
      cases h
  | hup links start rest henter ih =>
      rw [walk_up henter] at h
      obtain ⟨left, hleft⟩ := ih h
      exact ⟨left, fun more => by rw [List.cons_append, walk_up henter, hleft]⟩
  | hnone links start n rest henter hentry =>
      rw [walk_none henter hentry] at h
      cases h
  | hdirectory links start n rest henter hentry ih =>
      rw [walk_directory henter hentry] at h
      obtain ⟨left, hleft⟩ := ih h
      exact ⟨left, fun more => by rw [List.cons_append, walk_directory henter hentry, hleft]⟩
  | hfile links start n rest regular henter hentry =>
      rw [walk_file henter hentry] at h
      split at h
      · obtain rfl := Except.ok.inj h
        rw [hentry] at hloc
        cases hloc
      · cases h
  | hloop start n rest target henter hentry =>
      rw [walk_loop henter hentry] at h
      cases h
  | hlink links start n rest target henter hentry ih =>
      rw [walk_link henter hentry] at h
      obtain ⟨left, hleft⟩ := ih h
      refine ⟨left, fun more => ?_⟩
      rw [List.cons_append, walk_link henter hentry, ← List.append_assoc, hleft]

/-- What ends a walk ends every longer one. -/
theorem walk_append_error {e : Errno} (links : Nat) (start : List N) (parts more : List (PathPart N))
    (h : t.walk links start parts = .error e) :
    t.walk links start (parts ++ more) = .error e := by
  induction links, start, parts using t.walk_induction with
  | hnil links start =>
      rw [walk_nil] at h
      cases h
  | hdenied links start part rest henter =>
      rw [walk_denied henter] at h
      rw [List.cons_append, walk_denied henter, ← h]
  | hup links start rest henter ih =>
      rw [walk_up henter] at h
      rw [List.cons_append, walk_up henter]
      exact ih h
  | hnone links start n rest henter hentry =>
      rw [walk_none henter hentry] at h
      rw [List.cons_append, walk_none henter hentry, ← h]
  | hdirectory links start n rest henter hentry ih =>
      rw [walk_directory henter hentry] at h
      rw [List.cons_append, walk_directory henter hentry]
      exact ih h
  | hfile links start n rest regular henter hentry =>
      rw [walk_file henter hentry] at h
      split at h
      · cases h
      · rename_i hrest
        have hmore : rest ++ more ≠ [] := fun hnil => hrest (List.append_eq_nil_iff.mp hnil).1
        rw [List.cons_append, walk_file henter hentry, if_neg hmore, ← h]
  | hloop start n rest target henter hentry =>
      rw [walk_loop henter hentry] at h
      rw [List.cons_append, walk_loop henter hentry, ← h]
  | hlink links start n rest target henter hentry ih =>
      rw [walk_link henter hentry] at h
      rw [List.cons_append, walk_link henter hentry, ← List.append_assoc]
      exact ih h

/-- Everything above the location may be entered. -/
def Enterable (t : FsTree N) (loc : List N) : Prop :=
  ∀ above n, above ++ [n] <+: loc → t.mayEnter above = true

theorem enterable_nil (t : FsTree N) : t.Enterable [] := fun above n h => by
  have := List.prefix_nil.mp h
  simp at this

theorem Enterable.concat (h : t.Enterable loc) (henter : t.mayEnter loc = true) (n : N) :
    t.Enterable (loc ++ [n]) := by
  intro above n' hpre
  rcases List.prefix_concat_iff.mp hpre with heq | hpre
  · obtain ⟨rfl, -⟩ := List.append_inj' heq rfl
    exact henter
  · exact h above n' hpre

/-- A walk from the root only comes to places whose directories it could
enter. -/
theorem walk_enterable (links : Nat) (start : List N) (parts : List (PathPart N))
    (hstart : t.Enterable start) (h : t.walk links start parts = .ok loc) : t.Enterable loc := by
  induction links, start, parts using t.walk_induction with
  | hnil links start =>
      rw [walk_nil] at h
      obtain rfl := Except.ok.inj h
      exact hstart
  | hdenied links start part rest henter =>
      rw [walk_denied henter] at h
      cases h
  | hup links start rest henter ih =>
      rw [walk_up henter] at h
      exact ih (fun above n hpre => hstart above n (hpre.trans (List.dropLast_prefix start))) h
  | hnone links start n rest henter hentry =>
      rw [walk_none henter hentry] at h
      cases h
  | hdirectory links start n rest henter hentry ih =>
      rw [walk_directory henter hentry] at h
      exact ih (hstart.concat henter n) h
  | hfile links start n rest regular henter hentry =>
      rw [walk_file henter hentry] at h
      split at h
      · obtain rfl := Except.ok.inj h
        exact hstart.concat henter n
      · cases h
  | hloop start n rest target henter hentry =>
      rw [walk_loop henter hentry] at h
      cases h
  | hlink links start n rest target henter hentry ih =>
      rw [walk_link henter hentry] at h
      apply ih _ h
      split
      · exact t.enterable_nil
      · exact hstart

/-- The path that spells a location out follows no link. -/
theorem walk_spelled (links : Nat) (hloc : t.entry (start ++ loc) = some .directory ∨
      ∃ regular, t.entry (start ++ loc) = some (.file regular))
    (henter : t.Enterable (start ++ loc)) :
    t.walk links start (loc.map .name) = .ok (start ++ loc) := by
  induction loc generalizing start with
  | nil => simp
  | cons n rest ih =>
      have hassoc : start ++ n :: rest = (start ++ [n]) ++ rest := by simp
      rw [hassoc] at hloc henter ⊢
      have hhere : t.mayEnter start = true := henter start n (List.prefix_append _ _)
      rw [List.map_cons]
      rcases List.eq_nil_or_concat rest with rfl | ⟨init, last, hrest⟩
      · rw [List.append_nil] at hloc ⊢
        rcases hloc with hentry | ⟨regular, hentry⟩
        · rw [walk_directory hhere hentry, List.map_nil, walk_nil]
        · rw [walk_file hhere hentry, List.map_nil, if_pos rfl]
      · have hsome : t.entry ((start ++ [n]) ++ rest) ≠ none := by
          rcases hloc with hentry | ⟨regular, hentry⟩ <;> rw [hentry] <;> simp
        rw [walk_directory hhere (t.closed_append hsome (by rw [hrest]; simp))]
        exact ih hloc henter

/-! ### More entries -/

/-- `t'` has the entries of `t`, and possibly more. -/
structure Extends (t t' : FsTree N) : Prop where
  entry : ∀ loc e, t.entry loc = some e → t'.entry loc = some e
  mayEnter : t'.mayEnter = t.mayEnter
  mayCreate : t'.mayCreate = t.mayCreate

namespace Extends

variable {t' t'' : FsTree N}

theorem refl (t : FsTree N) : t.Extends t := ⟨fun _ _ h => h, rfl, rfl⟩

theorem trans (h : t.Extends t') (h' : t'.Extends t'') : t.Extends t'' :=
  ⟨fun loc e he => h'.entry loc e (h.entry loc e he), h'.mayEnter.trans h.mayEnter,
    h'.mayCreate.trans h.mayCreate⟩

/-- A walk that has arrived arrives at the same location. -/
theorem walk (h : t.Extends t') (links : Nat) (start : List N) (parts : List (PathPart N))
    (hwalk : t.walk links start parts = .ok loc) : t'.walk links start parts = .ok loc := by
  have henter' : ∀ {loc : List N}, t.mayEnter loc = true → t'.mayEnter loc = true := fun h' => by
    rw [h.mayEnter]
    exact h'
  induction links, start, parts using t.walk_induction with
  | hnil links start =>
      rw [walk_nil] at hwalk ⊢
      exact hwalk
  | hdenied links start part rest henter =>
      rw [walk_denied henter] at hwalk
      cases hwalk
  | hup links start rest henter ih =>
      rw [walk_up henter] at hwalk
      rw [walk_up (henter' henter)]
      exact ih hwalk
  | hnone links start n rest henter hentry =>
      rw [walk_none henter hentry] at hwalk
      cases hwalk
  | hdirectory links start n rest henter hentry ih =>
      rw [walk_directory henter hentry] at hwalk
      rw [walk_directory (henter' henter) (h.entry _ _ hentry)]
      exact ih hwalk
  | hfile links start n rest regular henter hentry =>
      rw [walk_file henter hentry] at hwalk
      rw [walk_file (henter' henter) (h.entry _ _ hentry)]
      exact hwalk
  | hloop start n rest target henter hentry =>
      rw [walk_loop henter hentry] at hwalk
      cases hwalk
  | hlink links start n rest target henter hentry ih =>
      rw [walk_link henter hentry] at hwalk
      rw [walk_link (henter' henter) (h.entry _ _ hentry)]
      exact ih hwalk

end Extends

/-! ### Making a directory -/

/-- A directory with room for a new name. -/
structure Vacant (t : FsTree N) (loc : List N) (n : N) : Prop where
  directory : t.entry loc = some .directory
  vacant : t.entry (loc ++ [n]) = none

theorem Vacant.below (h : t.Vacant loc n) (more : List N) :
    t.entry (loc ++ [n] ++ more) = none := by
  rcases List.eq_nil_or_concat more with rfl | ⟨init, last, hmore⟩
  · rw [List.append_nil]
    exact h.vacant
  · by_contra hsome
    have habove := t.closed_append hsome (by rw [hmore]; simp)
    rw [h.vacant] at habove
    cases habove

section Create

variable [DecidableEq N]

def addDirectory (t : FsTree N) {loc : List N} {n : N} (h : t.Vacant loc n) : FsTree N where
  entry := Function.update t.entry (loc ++ [n]) (some .directory)
  mayEnter := t.mayEnter
  mayCreate := t.mayCreate
  root := by
    rw [Function.update_of_ne (by simp)]
    exact t.root
  closed := by
    intro loc' n' hsome
    by_cases hnew : loc' = loc ++ [n]
    · rw [hnew, Function.update_self]
    · rw [Function.update_of_ne hnew]
      by_cases hsame : loc' ++ [n'] = loc ++ [n]
      · obtain ⟨rfl, -⟩ := List.append_inj' hsame rfl
        exact h.directory
      · rw [Function.update_of_ne hsame] at hsome
        exact t.closed loc' n' hsome

@[simp] theorem addDirectory_entry_self (h : t.Vacant loc n) :
    (t.addDirectory h).entry (loc ++ [n]) = some .directory :=
  Function.update_self _ _ _

theorem addDirectory_entry_of_ne (h : t.Vacant loc n) {loc' : List N} (hne : loc' ≠ loc ++ [n]) :
    (t.addDirectory h).entry loc' = t.entry loc' :=
  Function.update_of_ne hne _ _

theorem extends_addDirectory (h : t.Vacant loc n) : t.Extends (t.addDirectory h) := by
  refine ⟨fun loc' e he => ?_, rfl, rfl⟩
  rw [addDirectory_entry_of_ne h ?_]
  · exact he
  · rintro rfl
    rw [h.vacant] at he
    cases he

/-- Where `mkdir` puts a new directory. -/
def newLocation (t : FsTree N) (links : Nat) (start : List N) (parts : List (PathPart N)) (n : N) :
    Except Errno {loc : List N // t.Vacant loc n} :=
  match t.walk links start parts with
  | .error e => .error e
  | .ok loc =>
      if hdirectory : t.isDirectory loc = true then
        if t.mayEnter loc = false then .error .denied
        else if hvacant : (t.entry (loc ++ [n])).isNone = true then
          if t.mayCreate loc = false then .error .denied
          else .ok ⟨loc, isDirectory_iff.mp hdirectory, Option.isNone_iff_eq_none.mp hvacant⟩
        else .error .alreadyExists
      else .error .notDirectory

def mkdir (t : FsTree N) (links : Nat) (start : List N) (parts : List (PathPart N)) (n : N) :
    Except Errno Unit × FsTree N :=
  match t.newLocation links start parts n with
  | .error e => (.error e, t)
  | .ok place => (.ok (), t.addDirectory place.property)

omit [DecidableEq N] in
theorem walk_of_newLocation {parts : List (PathPart N)} {place : {loc : List N // t.Vacant loc n}}
    (h : t.newLocation links start parts n = .ok place) :
    t.walk links start parts = .ok place.val ∧ t.mayEnter place.val = true := by
  rw [newLocation] at h
  rcases hwalk : t.walk links start parts with e | loc
  · simp [hwalk] at h
  · simp only [hwalk] at h
    split at h
    · split at h
      · cases h
      · rename_i henter
        split at h
        · split at h
          · cases h
          · obtain rfl := Except.ok.inj h
            exact ⟨rfl, eq_true_of_ne_false henter⟩
        · cases h
    · cases h

/-- The new directory can be walked to. -/
theorem walk_addDirectory {parts : List (PathPart N)} (h : t.Vacant loc n)
    (hwalk : t.walk links start parts = .ok loc) (henter : t.mayEnter loc = true) :
    (t.addDirectory h).walk links start (parts ++ [.name n]) = .ok (loc ++ [n]) := by
  have hextends := extends_addDirectory h
  obtain ⟨left, hleft⟩ := walk_append links start parts (hextends.walk links start parts hwalk)
    (hextends.entry _ _ h.directory)
  have henter' : (t.addDirectory h).mayEnter loc = true := henter
  rw [hleft, walk_directory henter' (addDirectory_entry_self h), walk_nil]

/-! ### Making the directories of a path -/

/-- Make what is missing of the directories of a path, of which the first part
is `done`. -/
def createFrom (links : Nat) (start : List N) :
    FsTree N → List (PathPart N) → List (PathPart N) → Except Errno Unit × FsTree N
  | t, _, [] => (.ok (), t)
  | t, done, part :: rest =>
      match t.walk links start (done ++ [part]) with
      | .ok loc =>
          if t.isDirectory loc then createFrom links start t (done ++ [part]) rest
          else (.error .notDirectory, t)
      | .error .noEntry =>
          match part with
          | .up => (.error .noEntry, t)
          | .name n =>
              match t.mkdir links start done n with
              | (.error e, t) => (.error e, t)
              | (.ok _, t) => createFrom links start t (done ++ [part]) rest
      | .error e => (.error e, t)

/-- The location of the first directory `createFrom` makes, if it makes one. -/
def firstNew (links : Nat) (start : List N) (t : FsTree N) :
    List (PathPart N) → List (PathPart N) → Option (List N)
  | _, [] => none
  | done, part :: rest =>
      match t.walk links start (done ++ [part]) with
      | .ok loc => if t.isDirectory loc then firstNew links start t (done ++ [part]) rest else none
      | .error .noEntry =>
          match part with
          | .up => none
          | .name n =>
              match t.newLocation links start done n with
              | .error _ => none
              | .ok place => some (place.val ++ [n])
      | .error _ => none

/-- A directory with nothing in it. -/
structure Bare (t : FsTree N) (loc : List N) : Prop where
  directory : t.entry loc = some .directory
  empty : ∀ more, more ≠ [] → t.entry (loc ++ more) = none

theorem bare_addDirectory (h : t.Vacant loc n) : (t.addDirectory h).Bare (loc ++ [n]) := by
  refine ⟨addDirectory_entry_self h, fun more hmore => ?_⟩
  rw [addDirectory_entry_of_ne h ?_]
  · exact h.below more
  · intro heq
    exact hmore (List.append_right_eq_self.mp heq)

/-- What making the directories of a path leaves: entries are added only, and
none outside `new`; and if nothing failed, the path leads somewhere. -/
structure Created (t : FsTree N) (links : Nat) (start : List N) (path : List (PathPart N))
    (new : List N) (r : Except Errno Unit × FsTree N) : Prop where
  grows : t.Extends r.2
  elsewhere : ∀ loc, ¬new <+: loc → r.2.entry loc = t.entry loc
  arrives : ∀ u, r.1 = .ok u → ∃ loc, r.2.walk links start path = .ok loc

/-- In an empty directory all directories are new, and lie below it. -/
theorem createFrom_bare (names : List N) {done : List (PathPart N)}
    (hwalk : t.walk links start done = .ok loc) (hbare : t.Bare loc) :
    Created t links start (done ++ names.map .name) loc
      (createFrom links start t done (names.map .name)) := by
  induction names generalizing t done loc with
  | nil =>
      refine ⟨.refl t, fun _ _ => rfl, fun _ _ => ⟨loc, ?_⟩⟩
      rw [List.map_nil, List.append_nil]
      exact hwalk
  | cons n rest ih =>
      have hvacant : t.Vacant loc n := ⟨hbare.directory, hbare.empty [n] (by simp)⟩
      obtain ⟨left, hleft⟩ := walk_append links start done hwalk hbare.directory
      have hfailed : ∀ e, Created t links start (done ++ (n :: rest).map .name) loc (.error e, t) :=
        fun e => ⟨.refl t, fun _ _ => rfl, fun _ h => by cases h⟩
      rw [List.map_cons, createFrom, hleft]
      cases henter : t.mayEnter loc with
      | false =>
          rw [walk_denied henter]
          exact hfailed _
      | true =>
          rw [walk_none henter hvacant.vacant]
          rcases hnew : t.newLocation links start done n with e | place
          · simp only [mkdir, hnew]
            exact hfailed e
          · obtain ⟨hplace, -⟩ := walk_of_newLocation hnew
            obtain ⟨place, hproof⟩ := place
            obtain rfl : place = loc := Except.ok.inj (hplace.symm.trans hwalk)
            simp only [mkdir, hnew]
            obtain ⟨hgrows, helsewhere, harrives⟩ := ih
              (walk_addDirectory hproof hwalk henter) (bare_addDirectory hproof)
            refine ⟨(extends_addDirectory hproof).trans hgrows, fun loc' hout => ?_, ?_⟩
            · have hbelow : ¬place ++ [n] <+: loc' := fun h => hout ((List.prefix_append _ _).trans h)
              rw [helsewhere loc' hbelow, addDirectory_entry_of_ne]
              rintro rfl
              exact hbelow (List.prefix_refl _)
            · rwa [List.append_assoc] at harrives

/-- **Making the directories of a path**, where the first directory that is
made, if any, is at `first`: nothing changes but there and below. -/
structure Makes (t : FsTree N) (links : Nat) (start : List N) (path : List (PathPart N))
    (first : Option (List N)) (r : Except Errno Unit × FsTree N) : Prop where
  grows : t.Extends r.2
  arrives : ∀ u, r.1 = .ok u → ∃ loc, r.2.walk links start path = .ok loc
  nothing : first = none → r.2 = t
  made : ∀ new, first = some new → t.entry new = none ∧ r.2.entry new = some .directory
  elsewhere : ∀ new, first = some new → ∀ loc, ¬new <+: loc → r.2.entry loc = t.entry loc

omit [DecidableEq N] in
theorem Makes.failed (t : FsTree N) (links : Nat) (start : List N) (path : List (PathPart N))
    (e : Errno) : Makes t links start path none (.error e, t) :=
  ⟨.refl t, fun _ h => (by cases h), fun _ => rfl, fun _ h => (by cases h),
    fun _ h => (by cases h)⟩

theorem createFrom_spec (names : List N) {done : List (PathPart N)}
    (hwalk : t.walk links start done = .ok loc) (hloc : t.entry loc = some .directory) :
    Makes t links start (done ++ names.map .name) (firstNew links start t done (names.map .name))
      (createFrom links start t done (names.map .name)) := by
  induction names generalizing done loc with
  | nil =>
      refine ⟨.refl t, fun _ _ => ⟨loc, ?_⟩, fun _ => rfl, fun _ h => (by cases h),
        fun _ h => (by cases h)⟩
      rw [List.map_nil, List.append_nil]
      exact hwalk
  | cons n rest ih =>
      rw [List.map_cons, createFrom, firstNew]
      generalize hnext : t.walk links start (done ++ [.name n]) = walked
      rcases walked with e | next
      · cases e with
        | noEntry =>
            rcases hnew : t.newLocation links start done n with e | place
            · simp only [mkdir, hnew]
              exact .failed t links start _ e
            · obtain ⟨hplace, henter⟩ := walk_of_newLocation hnew
              have hextends := extends_addDirectory place.property
              obtain ⟨hgrows, helsewhere, harrives⟩ := createFrom_bare rest
                (walk_addDirectory place.property hplace henter) (bare_addDirectory place.property)
              rw [List.append_assoc] at harrives
              simp only [mkdir, hnew]
              refine ⟨hextends.trans hgrows, harrives, fun h => (by cases h), fun new h => ?_,
                fun new h loc' hout => ?_⟩
              · obtain rfl := Option.some.inj h
                exact ⟨place.property.vacant,
                  hgrows.entry _ _ (addDirectory_entry_self place.property)⟩
              · obtain rfl := Option.some.inj h
                rw [helsewhere loc' hout, addDirectory_entry_of_ne]
                rintro rfl
                exact hout (List.prefix_refl _)
        | notDirectory => exact .failed t links start _ _
        | loop => exact .failed t links start _ _
        | denied => exact .failed t links start _ _
        | alreadyExists => exact .failed t links start _ _
      · cases hdirectory : t.isDirectory next with
        | false =>
            simp only [hdirectory]
            exact .failed t links start _ _
        | true =>
            simp only [hdirectory]
            have hrest := ih hnext (isDirectory_iff.mp hdirectory)
            rwa [List.append_assoc] at hrest

omit [DecidableEq N] in
/-- A path that leads somewhere has no directory to be made. -/
theorem firstNew_of_walk {parts done : List (PathPart N)}
    (h : t.walk links start (done ++ parts) = .ok loc) : firstNew links start t done parts = none := by
  induction parts generalizing done with
  | nil => rfl
  | cons part rest ih =>
      have hassoc : done ++ part :: rest = done ++ [part] ++ rest := by simp
      rw [hassoc] at h
      rcases hnext : t.walk links start (done ++ [part]) with e | next
      · rw [walk_append_error links start _ rest hnext] at h
        cases h
      · simp only [firstNew, hnext]
        split
        · exact ih h
        · rfl

end Create

end FsTree

end FileTree
