/-
GridFlux/TreeEnumeration.lean

The enumeration of `runTreeDownloadClient`: a stack of directories, each listed
with NLST, and for each name SIZE, whose failure makes it a directory.

A directory that the options accept and that names one of the server's
directories is enumerated exactly if it is not `/`, which the server refuses to
list, and if the client can ask for everything beneath it and accepts what it
reads (`enumeration_exact_iff`).
-/
import GridFlux.RemoteTree

namespace GridFlux

open FileTree TextCodec

/-! ### The client -/

def remoteRelativePath (root path : Bytes) : Except Status Bytes :=
  if root = ascii "/" ∨ root = [] then do
    validateTreeRelativePath path
    return path
  else if path = root then
    .error (.invalidArgument (ascii "remote file path equals tree root"))
  else if ¬root ++ ascii "/" <+: path then
    .error (.invalidArgument (ascii "remote file path is outside tree root"))
  else do
    let relative := path.drop (root ++ ascii "/").length
    validateTreeRelativePath relative
    return relative

/-- The locals of the traversal, the top of the stack first. -/
structure Enumeration where
  link : Option ControlConnection
  stack : List Bytes
  records : List TreeFileRecord

section Enumerate

variable (options : ControlServerOptions) (env : Circumstances) (sourceDir : Bytes)
  (random : Nat → Fin 32 → UInt32)

/-- One name of a listing. -/
def visitName (current name : Bytes) (s : Enumeration) : Except Status Enumeration :=
  let candidate := joinRemotePath current name
  match ControlClient.size options env s.link candidate with
  | (.error _, link) => .ok { s with link := link, stack := candidate :: s.stack }
  | (.ok size, link) =>
      match remoteRelativePath sourceDir candidate with
      | .error e => .error e
      | .ok relative =>
          match ControlClient.mdtm options env link candidate with
          | (.error e, _) => .error e
          | (.ok mtime, link) =>
              .ok { s with
                link := link
                records := s.records ++ [⟨relative, size, mtime,
                  generateTransferId (random s.records.length), .pending, []⟩] }

def visitNames (current : Bytes) : List Bytes → Enumeration → Except Status Enumeration
  | [], s => .ok s
  | name :: names, s =>
      match visitName options env sourceDir random current name s with
      | .error e => .error e
      | .ok s => visitNames current names s

/-- The loop over the stack, `fuel` rounds of it at most. -/
def enumerate : Nat → Enumeration → Option (Except Status (List TreeFileRecord))
  | _, ⟨_, [], records⟩ => some (.ok (sortedFiles records))
  | 0, ⟨_, _ :: _, _⟩ => none
  | fuel + 1, ⟨link, current :: stack, records⟩ =>
      match ControlClient.nlst options env link current with
      | (.error e, _) => some (.error e)
      | (.ok names, link) =>
          match visitNames options env sourceDir random current names ⟨link, stack, records⟩ with
          | .error e => some (.error e)
          | .ok s => enumerate fuel s

end Enumerate

/-! ### The paths beneath the source directory -/

/-- The path the client builds for what lies at `below`. -/
def pathTo (sourceDir : Bytes) (below : List Name) : Bytes :=
  below.foldl (fun path n => joinRemotePath path n.val) sourceDir

/-- The path relative to the source directory. -/
def relativeText (below : List Name) : Bytes := join slash (below.map Subtype.val)

theorem pathTo_append (sourceDir : Bytes) (below : List Name) (n : Name) :
    pathTo sourceDir (below ++ [n]) = joinRemotePath (pathTo sourceDir below) n.val := by
  rw [pathTo, List.foldl_append]
  rfl

theorem relativeText_append {below : List Name} (hne : below ≠ []) (n : Name) :
    relativeText (below ++ [n]) = relativeText below ++ slash :: n.val := by
  rw [relativeText, List.map_append, join_append slash (fun h => hne (List.map_eq_nil_iff.mp h))
    (by simp)]
  rfl

/-- A relative path of plain names is refused for a drive prefix only. -/
theorem validateTreeRelativePath_relativeText {below : List Name} (hne : below ≠ [])
    (hplain : ∀ n ∈ below, PlainName n) :
    validateTreeRelativePath (relativeText below) = .ok () ↔
      hasWindowsDrivePrefix (relativeText below) = false := by
  have hseparated : ∀ piece ∈ below.map Subtype.val, slash ∉ piece ∧ piece ≠ [] := by
    intro piece hpiece
    obtain ⟨n, -, rfl⟩ := List.mem_map.mp hpiece
    exact ⟨n.property.2.1, n.property.1⟩
  have hpieces : pieces slash (relativeText below) = below.map Subtype.val :=
    pieces_join slash hseparated
  have hempty : relativeText below ≠ [] := by
    intro hnil
    rw [relativeText, join_eq_nil_iff fun piece hpiece => (hseparated piece hpiece).2] at hnil
    exact hne (List.map_eq_nil_iff.mp hnil)
  have hmem : ∀ c ∈ relativeText below, c = slash ∨ ∃ n ∈ below, c ∈ n.val := by
    intro c hc
    rcases mem_join hc with rfl | ⟨piece, hpiece, hc⟩
    · exact .inl rfl
    · obtain ⟨n, hn, rfl⟩ := List.mem_map.mp hpiece
      exact .inr ⟨n, hn, hc⟩
  have hbackslash : backslash ∉ relativeText below := by
    intro hc
    rcases hmem _ hc with heq | ⟨n, hn, hc⟩
    · exact absurd heq (by decide)
    · exact (hplain n hn).noBackslash hc
  have hcontrol : (relativeText below).all (!isControlCharacter ·) = true := by
    refine List.all_eq_true.mpr fun c hc => ?_
    rcases hmem c hc with rfl | ⟨n, hn, hc⟩
    · rfl
    · rw [(hplain n hn).control c hc]
      rfl
  have hhead : (relativeText below).head? ≠ some slash := by
    intro hhead
    obtain ⟨rest, hrest⟩ := List.head?_eq_some_iff.mp hhead
    rw [hrest, pieces, if_pos rfl] at hpieces
    exact (hseparated [] (hpieces ▸ List.mem_cons_self)).2 rfl
  have hlast : (relativeText below).getLast? ≠ some slash := by
    intro hlast
    obtain ⟨init, last, hbelow⟩ := (List.eq_nil_or_concat below).resolve_left hne
    rw [List.concat_eq_append] at hbelow
    have hend : (relativeText below).getLast? = last.val.getLast? := by
      rw [hbelow]
      by_cases hinit : init = []
      · rw [hinit]
        rfl
      · rw [relativeText_append hinit, List.getLast?_append, List.getLast?_cons,
          List.getLast?_eq_some_getLast last.property.1]
        rfl
    rw [hend] at hlast
    exact last.property.2.1 (List.mem_of_getLast? hlast)
  have hparts : ∀ part ∈ pathParts (relativeText below),
      part ≠ [] ∧ part ≠ ascii "." ∧ part ≠ ascii ".." := by
    rw [pathParts, hpieces, if_neg hlast, List.append_nil]
    intro part hpart
    obtain ⟨n, -, rfl⟩ := List.mem_map.mp (List.mem_filter.mp hpart).1
    exact ⟨n.property.1, n.property.2.2.1, n.property.2.2.2⟩
  have hheadBackslash : (relativeText below).head? ≠ some backslash := fun hhead =>
    hbackslash (List.mem_of_head? hhead)
  simp only [validateTreeRelativePath, bind_eq_ok, require_eq_ok]
  constructor
  · rintro ⟨-, -, -, -, -, -, -, -, -, hdrive, -⟩
    simpa using hdrive
  · intro hdrive
    exact ⟨(), hempty, (), ⟨hhead, hheadBackslash⟩, (), hbackslash, (), hcontrol, (),
      by rw [hdrive]; rfl, hparts⟩

/-! ### What can be enumerated -/

namespace RemoteHost

variable (host : RemoteHost)

/-- What the enumeration asks of an entry: the commands for it fit on a line,
and for a file the client accepts the relative path and the time. -/
structure Suitable (sourceDir : Bytes) (below : List Name) (t : DirTree) : Prop where
  line : FitsLine (pathTo sourceDir below)
  relative : ∀ size mtime, t = .file size mtime →
    hasWindowsDrivePrefix (relativeText below) = false
  time : ∀ size mtime, t = .file size mtime → ∃ value, ControlClient.readMdtm
    ⟨213, [formatReply 213 (formatMdtmTime host.env.unspecified mtime)]⟩ = .ok value

section Names

variable {host} {sourceDir : Bytes} {source below : List Name} {n : Name} {t : DirTree}
  {entries : List (Name × DirTree)}

theorem find_entry (hfind : host.tree.find (source ++ below) = some (.directory entries))
    (hmem : (n, t) ∈ entries) : host.tree.find (source ++ (below ++ [n])) = some t := by
  rw [← List.append_assoc]
  exact DirTree.find_child hfind
    (KeyedList.lookup_of_mem (host.wellFormed.distinct _ _ hfind) hmem)

section Spelled

variable (hsource : Spells sourceDir source)

include hsource

/-- The client's path of what lies beneath the source directory. -/
theorem spells_pathTo (hfind : host.tree.find (source ++ below) = some t) :
    Spells (pathTo sourceDir below) (source ++ below) := by
  induction below using List.reverseRecOn generalizing t with
  | nil =>
      rw [List.append_nil]
      exact hsource
  | append_singleton below n ih =>
      rw [← List.append_assoc] at hfind ⊢
      obtain ⟨entries, hdirectory, -⟩ := DirTree.exists_lookup hfind
      have hplain := host.wellFormed.plainName hfind n
        (List.mem_append_right _ (List.mem_singleton_self n))
      rw [pathTo_append]
      exact (ih hdirectory).child hplain

theorem pathTo_eq (hne : below ≠ []) (hfind : host.tree.find (source ++ below) = some t) :
    pathTo sourceDir below = sourceDir ++ slash :: relativeText below := by
  induction below using List.reverseRecOn generalizing t with
  | nil => exact absurd rfl hne
  | append_singleton below n ih =>
      rw [← List.append_assoc] at hfind
      obtain ⟨entries, hdirectory, -⟩ := DirTree.exists_lookup hfind
      rw [pathTo_append, (spells_pathTo hsource hdirectory).join_eq]
      by_cases hbelow : below = []
      · rw [hbelow]
        rfl
      · rw [ih hbelow hdirectory, relativeText_append hbelow, List.append_assoc]
        rfl

/-- The relative path of a candidate. -/
theorem remoteRelativePath_pathTo (hne : below ≠ [])
    (hfind : host.tree.find (source ++ below) = some t) :
    remoteRelativePath sourceDir (pathTo sourceDir below) =
      (validateTreeRelativePath (relativeText below)).map fun _ => relativeText below := by
  have hpath : pathTo sourceDir below = (sourceDir ++ ascii "/") ++ relativeText below := by
    rw [pathTo_eq hsource hne hfind, List.append_assoc]
    rfl
  have hroot : ¬(sourceDir = ascii "/" ∨ sourceDir = []) := by
    rintro (heq | heq)
    · exact hsource.ne_root heq
    · exact hsource.path_ne heq
  have hequal : pathTo sourceDir below ≠ sourceDir := by
    intro heq
    rw [pathTo_eq hsource hne hfind] at heq
    have hlength := congrArg List.length heq
    rw [List.length_append, List.length_cons] at hlength
    exact absurd hlength (Nat.ne_of_gt (Nat.lt_add_of_pos_right (Nat.succ_pos _)))
  rw [remoteRelativePath, if_neg hroot, if_neg hequal, hpath,
    if_neg (not_not.mpr (List.prefix_append _ _)), List.drop_left]
  dsimp only
  rcases validateTreeRelativePath (relativeText below) with e | u
  · rfl
  · rfl

theorem remoteRelativePath_ok_iff (hne : below ≠ [])
    (hfind : host.tree.find (source ++ below) = some t) (relative : Bytes) :
    remoteRelativePath sourceDir (pathTo sourceDir below) = .ok relative ↔
      hasWindowsDrivePrefix (relativeText below) = false ∧ relative = relativeText below := by
  have hplain : ∀ n ∈ below, PlainName n := fun n hn =>
    host.wellFormed.plainName hfind n (List.mem_append_right source hn)
  rw [remoteRelativePath_pathTo hsource hne hfind,
    ← validateTreeRelativePath_relativeText hne hplain]
  rcases validateTreeRelativePath (relativeText below) with e | u
  · exact ⟨fun h => (by cases h), fun h => (by cases h.1)⟩
  · exact ⟨fun h => ⟨rfl, (Except.ok.inj h).symm⟩, fun h => congrArg Except.ok h.2.symm⟩

end Spelled

end Names

/-! ### One name -/

section Visit

variable {host} {sourceDir : Bytes} {random : Nat → Fin 32 → UInt32} {source below : List Name}
  {n : Name} {t : DirTree} {c : ControlConnection} {stack : List Bytes}
  {records : List TreeFileRecord}

/-- What the records are compared by. -/
def recordKey (record : TreeFileRecord) : Bytes × Nat := (record.relativePath, record.size)

theorem visitName_closed (current name : Bytes) :
    visitName host.options host.env sourceDir random current name ⟨none, stack, records⟩ =
      .ok ⟨none, joinRemotePath current name :: stack, records⟩ := rfl

variable (hsource : Spells sourceDir source)
  (hfind : host.tree.find (source ++ (below ++ [n])) = some t)

include hsource hfind

theorem visitName_tooLong (hfits : ¬FitsLine (pathTo sourceDir (below ++ [n]))) :
    visitName host.options host.env sourceDir random (pathTo sourceDir below) n.val
        ⟨some c, stack, records⟩ =
      .ok ⟨none, pathTo sourceDir (below ++ [n]) :: stack, records⟩ := by
  have hcommand := @ControlClient.command_tooLong host.options host.env c .size _
    (spells_pathTo hsource hfind).toSendable hfits
  rw [visitName, ← pathTo_append, ControlClient.size, hcommand]
  rfl

theorem visitName_directory (hc : c.Ready) (hfits : FitsLine (pathTo sourceDir (below ++ [n])))
    {entries : List (Name × DirTree)} (hdirectory : t = .directory entries) :
    ∃ c' : ControlConnection, c'.Ready ∧
      visitName host.options host.env sourceDir random (pathTo sourceDir below) n.val
          ⟨some c, stack, records⟩ =
        .ok ⟨some c', pathTo sourceDir (below ++ [n]) :: stack, records⟩ := by
  rw [hdirectory] at hfind
  obtain ⟨e, c', hc', hsize⟩ := host.size_directory hc (spells_pathTo hsource hfind) hfits hfind
  refine ⟨c', hc', ?_⟩
  rw [visitName, ← pathTo_append, hsize]

/-- A file: the client checks its path and its time. -/
theorem visitName_file (hc : c.Ready) (hfits : FitsLine (pathTo sourceDir (below ++ [n])))
    {size : Nat} {mtime : Int} (hfile : t = .file size mtime) :
    ∃ c' : ControlConnection, c'.Ready ∧
      visitName host.options host.env sourceDir random (pathTo sourceDir below) n.val
          ⟨some c, stack, records⟩ =
        (remoteRelativePath sourceDir (pathTo sourceDir (below ++ [n]))).bind fun relative =>
          (ControlClient.readMdtm
            ⟨213, [formatReply 213 (formatMdtmTime host.env.unspecified mtime)]⟩).bind fun value =>
            .ok ⟨some c', stack, records ++ [⟨relative, size, value,
              generateTransferId (random records.length), .pending, []⟩]⟩ := by
  rw [hfile] at hfind
  have hspells := spells_pathTo hsource hfind
  obtain ⟨c₁, hc₁, hsize⟩ := host.size_file hc hspells hfits hfind
  obtain ⟨c₂, hc₂, hmdtm⟩ := host.mdtm_file hc₁ hspells hfits hfind
  refine ⟨c₂, hc₂, ?_⟩
  rw [visitName, ← pathTo_append, hsize]
  dsimp only
  rcases remoteRelativePath sourceDir (pathTo sourceDir (below ++ [n])) with e | relative
  · rfl
  dsimp only
  rw [hmdtm]
  rcases ControlClient.readMdtm
    ⟨213, [formatReply 213 (formatMdtmTime host.env.unspecified mtime)]⟩ with e | value
  · rfl
  · rfl

theorem visitName_file_ok (hc : c.Ready) (hsuitable : host.Suitable sourceDir (below ++ [n]) t)
    {size : Nat} {mtime : Int} (hfile : t = .file size mtime) :
    ∃ c' : ControlConnection, ∃ record, c'.Ready ∧
      visitName host.options host.env sourceDir random (pathTo sourceDir below) n.val
        ⟨some c, stack, records⟩ = .ok ⟨some c', stack, records ++ [record]⟩ ∧
      recordKey record = (relativeText (below ++ [n]), size) := by
  obtain ⟨c', hc', hvisit⟩ := @visitName_file host sourceDir random source below n t c stack records
    hsource hfind hc hsuitable.line size mtime hfile
  obtain ⟨value, hvalue⟩ := hsuitable.time size mtime hfile
  have hrelative := (remoteRelativePath_ok_iff hsource (by simp) hfind _).mpr
    ⟨hsuitable.relative size mtime hfile, rfl⟩
  rw [hrelative, hvalue] at hvisit
  exact ⟨c', _, hc', hvisit, rfl⟩

theorem suitable_of_visitName (hc : c.Ready)
    (hfits : FitsLine (pathTo sourceDir (below ++ [n]))) {size : Nat} {mtime : Int}
    (hfile : t = .file size mtime) {s : Enumeration}
    (hvisit : visitName host.options host.env sourceDir random (pathTo sourceDir below) n.val
      ⟨some c, stack, records⟩ = .ok s) :
    host.Suitable sourceDir (below ++ [n]) t ∧
      ∃ c' : ControlConnection, c'.Ready ∧ s.link = some c' ∧ s.stack = stack := by
  obtain ⟨c', hc', hfileVisit⟩ := @visitName_file host sourceDir random source below n t c stack
    records hsource hfind hc hfits size mtime hfile
  rw [hfileVisit] at hvisit
  obtain ⟨relative, hrelative, hvisit⟩ := bind_eq_ok.mp hvisit
  obtain ⟨value, hvalue, hvisit⟩ := bind_eq_ok.mp hvisit
  obtain rfl := Except.ok.inj hvisit
  obtain ⟨hdrive, -⟩ := (remoteRelativePath_ok_iff hsource (by simp) hfind _).mp hrelative
  refine ⟨⟨hfits, fun _ _ _ => hdrive, fun size' mtime' hfile' => ?_⟩, c', hc', rfl, rfl⟩
  rw [hfile] at hfile'
  obtain ⟨-, rfl⟩ := DirTree.file.inj hfile'
  exact ⟨value, hvalue⟩

end Visit

/-! ### One directory -/

/-- A directory of the tree, by its location beneath the source directory. -/
abbrev Item := List Name × List (Name × DirTree)

/-- The directories among the entries of `below`. -/
def subdirectories (below : List Name) (entries : List (Name × DirTree)) : List Item :=
  entries.filterMap fun entry => entry.2.inner.map fun inner => (below ++ [entry.1], inner)

def stackOf (sourceDir : Bytes) (items : List Item) : List Bytes :=
  items.map fun item => pathTo sourceDir item.1

/-- The files beneath a directory, as they are to be recorded. -/
def keysOf (item : Item) : List (Bytes × Nat) :=
  (DirTree.filesIn item.2).map fun f => (relativeText (item.1 ++ f.1), f.2)

theorem keysOf_file (below : List Name) (n : Name) (size : Nat) (mtime : Int)
    (rest : List (Name × DirTree)) :
    keysOf (below, (n, .file size mtime) :: rest) =
      (relativeText (below ++ [n]), size) :: keysOf (below, rest) := rfl

theorem keysOf_directory (below : List Name) (n : Name) (inner rest : List (Name × DirTree)) :
    keysOf (below, (n, .directory inner) :: rest) =
      keysOf (below ++ [n], inner) ++ keysOf (below, rest) := by
  rw [keysOf, DirTree.filesIn, DirTree.files, List.map_append, List.map_map, keysOf]
  congr 1
  apply List.map_congr_left
  intro f _
  show (relativeText (below ++ n :: f.1), f.2) = (relativeText (below ++ [n] ++ f.1), f.2)
  rw [List.append_assoc]
  rfl

section Directory

variable {host} {sourceDir : Bytes} {random : Nat → Fin 32 → UInt32} {source below : List Name}
  {shown : List (Name × DirTree)} {c : ControlConnection} {stack : List Bytes}
  {records : List TreeFileRecord}

theorem visitNames_closed (current : Bytes) (names : List Bytes) (hstack : stack ≠ []) :
    ∃ stack', stack' ≠ [] ∧
      visitNames host.options host.env sourceDir random current names ⟨none, stack, records⟩ =
        .ok ⟨none, stack', records⟩ := by
  induction names generalizing stack with
  | nil => exact ⟨stack, hstack, rfl⟩
  | cons name names ih =>
      obtain ⟨stack', hne, hvisit⟩ := ih (List.cons_ne_nil (joinRemotePath current name) stack)
      refine ⟨stack', hne, ?_⟩
      rw [visitNames, visitName_closed]
      exact hvisit

variable (hsource : Spells sourceDir source)
  (hfind : ∀ entry ∈ shown, host.tree.find (source ++ (below ++ [entry.1])) = some entry.2)

include hsource hfind

/-- **A directory whose entries are all suitable** is gone through: its files
become records, its directories come on the stack. -/
theorem visitNames_ok (hc : c.Ready)
    (hsuitable : ∀ entry ∈ shown, host.Suitable sourceDir (below ++ [entry.1]) entry.2) :
    ∃ c' : ControlConnection, ∃ new, c'.Ready ∧
      visitNames host.options host.env sourceDir random (pathTo sourceDir below)
          (shown.map fun entry => entry.1.val) ⟨some c, stack, records⟩ =
        .ok ⟨some c', stackOf sourceDir (subdirectories below shown).reverse ++ stack,
          records ++ new⟩ ∧
      (keysOf (below, shown)).Perm
        (new.map recordKey ++ (subdirectories below shown).flatMap keysOf) := by
  induction shown generalizing c stack records with
  | nil => exact ⟨c, [], hc, by rw [List.append_nil]; rfl, .nil⟩
  | cons entry shown ih =>
      obtain ⟨n, t⟩ := entry
      rw [List.forall_mem_cons] at hfind hsuitable
      rw [List.map_cons, visitNames]
      cases t with
      | file size mtime =>
          obtain ⟨c₁, record, hc₁, hvisit, hkey⟩ := @visitName_file_ok host sourceDir random source
            below n _ c stack records hsource hfind.1 hc hsuitable.1 size mtime rfl
          obtain ⟨c', new, hc', hrest, hperm⟩ := @ih c₁ stack (records ++ [record]) hfind.2 hc₁
            hsuitable.2
          rw [hvisit]
          refine ⟨c', record :: new, hc', ?_, ?_⟩
          · rw [← List.append_cons] at hrest
            exact hrest
          · rw [keysOf_file, ← hkey]
            exact hperm.cons _
      | directory inner =>
          obtain ⟨c₁, hc₁, hvisit⟩ := @visitName_directory host sourceDir random source below n _ c
            stack records hsource hfind.1 hc hsuitable.1.line inner rfl
          obtain ⟨c', new, hc', hrest, hperm⟩ := @ih c₁
            (pathTo sourceDir (below ++ [n]) :: stack) records hfind.2 hc₁ hsuitable.2
          have hsub : subdirectories below ((n, .directory inner) :: shown) =
              (below ++ [n], inner) :: subdirectories below shown := rfl
          rw [hvisit, hsub]
          refine ⟨c', new, hc', ?_, ?_⟩
          · rw [List.reverse_cons, stackOf, List.map_append, List.append_assoc]
            exact hrest
          · rw [keysOf_directory, List.flatMap_cons]
            exact (hperm.append_left _).trans (List.perm_append_comm_assoc _ _ _)

/-- A listing that has been gone through with the connection still open, or
with a directory left to list. -/
theorem suitable_of_visitNames (hc : c.Ready) {s : Enumeration}
    (hvisit : visitNames host.options host.env sourceDir random (pathTo sourceDir below)
      (shown.map fun entry => entry.1.val) ⟨some c, stack, records⟩ = .ok s) :
    (s.link = none ∧ s.stack ≠ []) ∨
      ((∀ entry ∈ shown, host.Suitable sourceDir (below ++ [entry.1]) entry.2) ∧
        ∃ c' : ControlConnection, c'.Ready ∧ s.link = some c' ∧
          s.stack = stackOf sourceDir (subdirectories below shown).reverse ++ stack) := by
  induction shown generalizing c stack records with
  | nil =>
      obtain rfl := Except.ok.inj hvisit
      exact .inr ⟨fun _ h => (by cases h), c, hc, rfl, rfl⟩
  | cons entry shown ih =>
      obtain ⟨n, t⟩ := entry
      rw [List.forall_mem_cons] at hfind
      rw [List.map_cons, visitNames] at hvisit
      by_cases hfits : FitsLine (pathTo sourceDir (below ++ [n]))
      · cases t with
        | file size mtime =>
            rcases hone : visitName host.options host.env sourceDir random (pathTo sourceDir below)
              n.val ⟨some c, stack, records⟩ with e | s₁
            · rw [hone] at hvisit
              cases hvisit
            obtain ⟨hsuitable, c₁, hc₁, hlink, hstack⟩ := suitable_of_visitName hsource hfind.1 hc
              hfits rfl hone
            rw [hone] at hvisit
            obtain ⟨link, stack', records'⟩ := s₁
            obtain rfl : link = some c₁ := hlink
            obtain rfl : stack' = stack := hstack
            rcases @ih c₁ stack' records' hfind.2 hc₁ hvisit with hclosed | ⟨hrest, hopen⟩
            · exact .inl hclosed
            · exact .inr ⟨List.forall_mem_cons.mpr ⟨hsuitable, hrest⟩, hopen⟩
        | directory inner =>
            obtain ⟨c₁, hc₁, hone⟩ := @visitName_directory host sourceDir random source below n _ c
              stack records hsource hfind.1 hc hfits inner rfl
            have hsuitable : host.Suitable sourceDir (below ++ [n]) (.directory inner) :=
              ⟨hfits, fun _ _ h => (by cases h), fun _ _ h => (by cases h)⟩
            have hsub : subdirectories below ((n, .directory inner) :: shown) =
              (below ++ [n], inner) :: subdirectories below shown := rfl
            rw [hone] at hvisit
            rcases ih hfind.2 hc₁ hvisit with hclosed | ⟨hrest, c', hc', hlink, hstack⟩
            · exact .inl hclosed
            · refine .inr ⟨List.forall_mem_cons.mpr ⟨hsuitable, hrest⟩, c', hc', hlink, ?_⟩
              rw [hstack, hsub, List.reverse_cons, stackOf, stackOf, List.map_append,
                List.append_assoc]
              rfl
      · -- the server closes the connection, and the name stays on the stack
        rw [visitName_tooLong hsource hfind.1 hfits] at hvisit
        obtain ⟨stack', hne, hclosed⟩ := @visitNames_closed host sourceDir random
          (pathTo sourceDir (below ++ [n]) :: stack) records (pathTo sourceDir below)
          (shown.map fun entry => entry.1.val) (List.cons_ne_nil _ _)
        dsimp only at hvisit
        rw [hclosed] at hvisit
        obtain rfl := Except.ok.inj hvisit
        exact .inl ⟨rfl, hne⟩

end Directory

/-! ### Whole runs -/

section Run

variable {host} {sourceDir : Bytes} {random : Nat → Fin 32 → UInt32} {source : List Name}

theorem keysOf_perm {below : List Name} {shown entries : List (Name × DirTree)}
    (h : shown.Perm entries) : (keysOf (below, shown)).Perm (keysOf (below, entries)) := by
  rw [keysOf, keysOf, DirTree.filesIn_eq, DirTree.filesIn_eq]
  exact (h.flatMap_right _).map _

/-- The directories that are still to be listed, at any depth. -/
def remaining (items : List Item) : Nat :=
  (items.map fun item => (DirTree.directory item.2).directories).sum

theorem remaining_subdirectories (below : List Name) (shown : List (Name × DirTree)) :
    remaining (subdirectories below shown) = DirTree.directoriesIn shown := by
  induction shown with
  | nil => rfl
  | cons entry shown ih =>
      obtain ⟨n, t⟩ := entry
      cases t with
      | file size mtime =>
          rw [DirTree.directoriesIn, DirTree.directories, Nat.zero_add, ← ih]
          rfl
      | directory inner =>
          rw [DirTree.directoriesIn, ← ih]
          rfl

theorem remaining_perm {items items' : List Item} (h : items.Perm items') :
    remaining items = remaining items' := (h.map _).sum_eq

theorem remaining_append (items items' : List Item) :
    remaining (items ++ items') = remaining items + remaining items' := by
  rw [remaining, List.map_append, List.sum_append]
  rfl

/-- The items are directories of the tree. -/
def AllFound (host : RemoteHost) (source : List Name) (items : List Item) : Prop :=
  ∀ item ∈ items, host.tree.find (source ++ item.1) = some (.directory item.2)

/-- Everything beneath the items is suitable. -/
def AllSuitable (host : RemoteHost) (sourceDir : Bytes) (source : List Name) (items : List Item) :
    Prop :=
  ∀ item ∈ items, ∀ more t, host.tree.find (source ++ (item.1 ++ more)) = some t →
    host.Suitable sourceDir (item.1 ++ more) t

theorem mem_subdirectories {below : List Name} {shown : List (Name × DirTree)} {item : Item}
    (h : item ∈ subdirectories below shown) :
    ∃ n, (n, DirTree.directory item.2) ∈ shown ∧ item.1 = below ++ [n] := by
  obtain ⟨⟨n, t⟩, hentry, hitem⟩ := List.mem_filterMap.mp h
  cases t with
  | file size mtime => cases hitem
  | directory inner =>
      obtain rfl := Option.some.inj hitem
      exact ⟨n, hentry, rfl⟩

theorem AllFound.subdirectories {below : List Name} {shown entries : List (Name × DirTree)}
    (hfind : host.tree.find (source ++ below) = some (.directory entries))
    (hshown : shown.Perm entries) : AllFound host source (RemoteHost.subdirectories below shown) := by
  intro item hitem
  obtain ⟨n, hentry, heq⟩ := mem_subdirectories hitem
  rw [heq]
  exact find_entry hfind (hshown.subset hentry)

theorem mem_subdirectories_of_mem {below : List Name} {shown inner : List (Name × DirTree)}
    {n : Name} (h : (n, DirTree.directory inner) ∈ shown) :
    (below ++ [n], inner) ∈ RemoteHost.subdirectories below shown :=
  List.mem_filterMap.mpr ⟨_, h, rfl⟩

/-- What lies beneath a directory is the directory, its entries, and what lies
beneath those. -/
theorem suitable_beneath_iff {below : List Name} {shown entries : List (Name × DirTree)}
    (hfind : host.tree.find (source ++ below) = some (.directory entries))
    (hshown : shown.Perm entries) :
    (∀ more t, host.tree.find (source ++ (below ++ more)) = some t →
        host.Suitable sourceDir (below ++ more) t) ↔
      FitsLine (pathTo sourceDir below) ∧
        (∀ entry ∈ shown, host.Suitable sourceDir (below ++ [entry.1]) entry.2) ∧
        AllSuitable host sourceDir source (RemoteHost.subdirectories below shown) := by
  constructor
  · intro h
    refine ⟨?_, fun entry hentry => ?_, fun item hitem more t hmore => ?_⟩
    · have hself := (h [] _ (by rw [List.append_nil]; exact hfind)).line
      rwa [List.append_nil] at hself
    · exact h [entry.1] entry.2 (find_entry hfind (hshown.subset hentry))
    · obtain ⟨n, -, heq⟩ := mem_subdirectories hitem
      rw [heq, List.append_assoc] at hmore ⊢
      exact h (n :: more) t hmore
  · rintro ⟨hfits, hentries, hsub⟩ more t hmore
    cases more with
    | nil =>
        rw [List.append_nil] at hmore ⊢
        obtain rfl := Option.some.inj (hfind.symm.trans hmore)
        exact ⟨hfits, fun _ _ h => (by cases h), fun _ _ h => (by cases h)⟩
    | cons n rest =>
        have hassoc : source ++ (below ++ n :: rest) = (source ++ below ++ [n]) ++ rest := by simp
        rw [hassoc, DirTree.find_append] at hmore
        obtain ⟨child, hchild, hrest⟩ := Option.bind_eq_some_iff.mp hmore
        obtain ⟨entries', hfind', hlookup⟩ := DirTree.exists_lookup hchild
        obtain rfl := DirTree.directory.inj (Option.some.inj (hfind.symm.trans hfind'))
        have hmem := hshown.symm.subset (KeyedList.mem_of_lookup hlookup)
        cases rest with
        | nil =>
            obtain rfl := Option.some.inj ((DirTree.find_nil child).symm.trans hrest)
            exact hentries _ hmem
        | cons n' rest =>
            cases child with
            | file size mtime => cases hrest
            | directory inner =>
                have hitem := hsub _ (mem_subdirectories_of_mem hmem) (n' :: rest) t
                rw [List.append_assoc] at hitem
                have hthere : source ++ (below ++ ([n] ++ n' :: rest)) =
                    (source ++ below ++ [n]) ++ n' :: rest := by simp
                apply hitem
                rw [hthere, DirTree.find_append, hchild]
                exact hrest

/-- Nothing is listed over a closed connection. -/
theorem enumerate_closed {fuel : Nat} {stack : List Bytes} {records out : List TreeFileRecord}
    (hstack : stack ≠ []) :
    enumerate host.options host.env sourceDir random fuel ⟨none, stack, records⟩ ≠
      some (.ok out) := by
  intro h
  cases stack with
  | nil => exact hstack rfl
  | cons current stack =>
      cases fuel with
      | zero => cases h
      | succ fuel =>
          rw [enumerate, host.nlst_closed] at h
          cases h

variable (hsource : Spells sourceDir source)

include hsource

/-- **Where the enumeration ends well**, everything beneath the directories on
the stack was suitable. -/
theorem suitable_of_enumerate {fuel : Nat} {c : ControlConnection} {items : List Item}
    {records out : List TreeFileRecord} (hc : c.Ready) (hitems : AllFound host source items)
    (h : enumerate host.options host.env sourceDir random fuel
      ⟨some c, stackOf sourceDir items, records⟩ = some (.ok out)) :
    AllSuitable host sourceDir source items := by
  induction fuel generalizing c items records with
  | zero =>
      cases items with
      | nil => exact fun _ hitem => by cases hitem
      | cons item items => cases h
  | succ fuel ih =>
      cases items with
      | nil => exact fun _ hitem => by cases hitem
      | cons item items =>
          obtain ⟨below, entries⟩ := item
          have hfind : host.tree.find (source ++ below) = some (.directory entries) :=
            hitems _ List.mem_cons_self
          have hspells := spells_pathTo hsource hfind
          rw [stackOf, List.map_cons, enumerate] at h
          by_cases hfits : FitsLine (pathTo sourceDir below)
          · obtain ⟨shown, c₁, hc₁, hshown, hnlst⟩ := host.nlst_directory hc hspells hfits hfind
            rw [hnlst] at h
            dsimp only at h
            rcases hvisit : visitNames host.options host.env sourceDir random
              (pathTo sourceDir below) (shown.map fun entry => entry.1.val)
              ⟨some c₁, stackOf sourceDir items, records⟩ with e | s
            · rw [stackOf] at hvisit
              rw [hvisit] at h
              cases h
            have hentries : ∀ entry ∈ shown,
                host.tree.find (source ++ (below ++ [entry.1])) = some entry.2 :=
              fun entry hentry => find_entry hfind (hshown.subset hentry)
            have hend := suitable_of_visitNames hsource hentries hc₁ hvisit
            rw [stackOf] at hvisit
            rw [hvisit] at h
            dsimp only at h
            obtain ⟨link, stack', records'⟩ := s
            rcases hend with ⟨rfl, hne⟩ | ⟨hsuitable, c₂, hc₂, rfl, rfl⟩
            · exact absurd h (enumerate_closed hne)
            rw [stackOf, stackOf, ← List.map_append] at h
            have hnew : AllFound host source ((subdirectories below shown).reverse ++ items) := by
              intro item hitem
              rcases List.mem_append.mp hitem with hitem | hitem
              · exact AllFound.subdirectories hfind hshown item (List.mem_reverse.mp hitem)
              · exact hitems item (List.mem_cons_of_mem _ hitem)
            have hrest := ih hc₂ hnew h
            intro item hitem more t hmore
            rcases List.mem_cons.mp hitem with rfl | hitem
            · exact (suitable_beneath_iff hfind hshown).mpr ⟨hfits, hsuitable,
                fun item hitem => hrest item
                  (List.mem_append_left _ (List.mem_reverse.mpr hitem))⟩ more t hmore
            · exact hrest item (List.mem_append_right _ hitem) more t hmore
          · -- the server does not read the line
            obtain ⟨e, link, hnlst⟩ := host.nlst_tooLong hc hspells.toSendable hfits
            rw [hnlst] at h
            cases h

/-- **An enumeration of suitable directories** ends, with a record for each
file beneath them. -/
theorem enumerate_ok (count : Nat) {c : ControlConnection} {items : List Item}
    {records : List TreeFileRecord} (hc : c.Ready) (hcount : remaining items = count)
    (hitems : AllFound host source items) (hsuitable : AllSuitable host sourceDir source items) :
    ∃ fuel new, enumerate host.options host.env sourceDir random fuel
        ⟨some c, stackOf sourceDir items, records⟩ = some (.ok (sortedFiles (records ++ new))) ∧
      (new.map recordKey).Perm (items.flatMap keysOf) := by
  induction count using Nat.strong_induction_on generalizing c items records with
  | h count ih =>
      cases items with
      | nil =>
          refine ⟨0, [], ?_, .nil⟩
          rw [List.append_nil]
          rfl
      | cons item items =>
          obtain ⟨below, entries⟩ := item
          have hfind : host.tree.find (source ++ below) = some (.directory entries) :=
            hitems _ List.mem_cons_self
          have hspells := spells_pathTo hsource hfind
          have hbelow := hsuitable _ List.mem_cons_self
          have hfits : FitsLine (pathTo sourceDir below) :=
            ((suitable_beneath_iff hfind (List.Perm.refl entries)).mp hbelow).1
          obtain ⟨shown, c₁, hc₁, hshown, hnlst⟩ := host.nlst_directory hc hspells hfits hfind
          obtain ⟨-, hentries, hsub⟩ := (suitable_beneath_iff hfind hshown).mp hbelow
          obtain ⟨c₂, new, hc₂, hvisit, hkeys⟩ := @visitNames_ok host sourceDir random source below
            shown c₁ (stackOf sourceDir items) records hsource
            (fun entry hentry => find_entry hfind (hshown.subset hentry)) hc₁ hentries
          -- one directory fewer
          have hless : remaining ((subdirectories below shown).reverse ++ items) < count := by
            rw [← hcount, remaining_append, remaining_perm (List.reverse_perm _),
              remaining_subdirectories, DirTree.directoriesIn_eq, (hshown.map _).sum_eq,
              ← DirTree.directoriesIn_eq]
            exact Nat.add_lt_add_right (Nat.lt_succ_self _) _
          have hnewFound : AllFound host source ((subdirectories below shown).reverse ++ items) := by
            intro item hitem
            rcases List.mem_append.mp hitem with hitem | hitem
            · exact AllFound.subdirectories hfind hshown item (List.mem_reverse.mp hitem)
            · exact hitems item (List.mem_cons_of_mem _ hitem)
          have hnewSuitable : AllSuitable host sourceDir source
              ((subdirectories below shown).reverse ++ items) := by
            intro item hitem
            rcases List.mem_append.mp hitem with hitem | hitem
            · exact hsub item (List.mem_reverse.mp hitem)
            · exact hsuitable item (List.mem_cons_of_mem _ hitem)
          obtain ⟨fuel, more, hrest, hmore⟩ := ih _ hless hc₂ rfl hnewFound hnewSuitable
          refine ⟨fuel + 1, new ++ more, ?_, ?_⟩
          · rw [stackOf, List.map_cons, enumerate, hnlst]
            dsimp only
            rw [stackOf] at hvisit
            rw [hvisit]
            dsimp only
            rw [← List.append_assoc, ← hrest, stackOf, stackOf, List.map_append]
          · have hsubs := (List.reverse_perm (subdirectories below shown)).flatMap_right keysOf
            rw [List.flatMap_append] at hmore
            rw [List.map_append, List.flatMap_cons]
            have hall : (new.map recordKey ++ more.map recordKey).Perm
                (new.map recordKey ++ ((subdirectories below shown).flatMap keysOf ++
                  items.flatMap keysOf)) :=
              (hmore.trans (hsubs.append_right _)).append_left _
            rw [← List.append_assoc] at hall
            have hown : (new.map recordKey ++ (subdirectories below shown).flatMap keysOf).Perm
                (keysOf (below, entries)) := hkeys.symm.trans (keysOf_perm hshown)
            exact hall.trans (hown.append_right _)

end Run

/-! ### The source directory -/

section Source

variable {host} {sourceDir option : Bytes} {source : List Name} {t : DirTree}

/-- Each element of a directory argument is a name of the location. -/
theorem name_of_piece (hvalid : validateTreeRelativePath sourceDir = .ok ())
    (hparts : (FsPath.parse sourceDir).parts = source.map .name) {piece : Bytes}
    (hpiece : piece ∈ pieces slash sourceDir) (hne : piece ≠ []) : ∃ n ∈ source, n.val = piece := by
  have hpart : piece ∈ pathParts sourceDir := by
    rw [pathParts]
    exact List.mem_append_left _ (List.mem_filter.mpr ⟨hpiece, decide_eq_true hne⟩)
  simp only [validateTreeRelativePath, bind_eq_ok, require_eq_ok] at hvalid
  obtain ⟨-, -, -, -, -, -, -, -, -, -, hsegments⟩ := hvalid
  obtain ⟨-, hdot, hup⟩ := hsegments piece hpart
  have hdot' : piece ≠ [46] := hdot
  have hup' : piece ≠ [46, 46] := hup
  have hslash : 47 ∉ piece := notMem_of_mem_pieces 47 hpiece
  have hname : partOf piece = some (.name ⟨piece, hne, hslash, hdot', hup'⟩) := by
    rw [partOf, dif_neg hup', dif_pos ⟨hne, hslash, hdot'⟩]
  have hmem : PathPart.name ⟨piece, hne, hslash, hdot', hup'⟩ ∈ source.map PathPart.name := by
    rw [← hparts, FsPath.parse]
    exact List.mem_filterMap.mpr ⟨piece, hpiece, hname⟩
  obtain ⟨n, hn, heq⟩ := List.mem_map.mp hmem
  exact ⟨n, hn, congrArg Subtype.val (PathPart.name.inj heq)⟩

/-- A directory argument other than `/` spells its location. -/
theorem spells_of_valid (hvalid : validateRemoteDirArgument sourceDir option = .ok ())
    (hroot : sourceDir ≠ ascii "/") (hparts : (FsPath.parse sourceDir).parts = source.map .name)
    (hfind : host.tree.find source = some t) : Spells sourceDir source := by
  have hempty : sourceDir ≠ [] := by
    rintro rfl
    cases hvalid
  rw [validateRemoteDirArgument, if_neg hempty, if_neg hroot] at hvalid
  obtain ⟨-, hcontrol⟩ := validateTreeRelativePath_line hvalid
  have hhead : sourceDir.head? ≠ some slash := by
    have hvalid' := hvalid
    simp only [validateTreeRelativePath, bind_eq_ok, require_eq_ok] at hvalid'
    obtain ⟨-, -, -, hends, -⟩ := hvalid'
    exact hends.1
  have hlast : sourceDir.getLast? ≠ some slash := by
    intro hlast
    have hvalid' := hvalid
    simp only [validateTreeRelativePath, bind_eq_ok, require_eq_ok] at hvalid'
    obtain ⟨-, -, -, -, -, -, -, -, -, -, hsegments⟩ := hvalid'
    refine (hsegments [] ?_).1 rfl
    rw [pathParts, if_pos hlast]
    exact List.mem_append_right _ (List.mem_singleton_self _)
  have hplain := host.wellFormed.plainName hfind
  obtain ⟨first, hfirst⟩ := Option.ne_none_iff_exists'.mp
    (fun hnone => hempty (List.head?_eq_none_iff.mp hnone))
  obtain ⟨last, hend⟩ := Option.ne_none_iff_exists'.mp
    (fun hnone => hempty (List.getLast?_eq_none_iff.mp hnone))
  rw [hfirst] at hhead
  rw [hend] at hlast
  obtain ⟨piece, hpiece, hpieceHead⟩ := mem_pieces_head slash hfirst fun heq => hhead (heq ▸ rfl)
  obtain ⟨piece', hpiece', hpieceLast⟩ := mem_pieces_getLast slash hend fun heq => hlast (heq ▸ rfl)
  obtain ⟨n, hn, rfl⟩ := name_of_piece hvalid hparts hpiece (by rintro rfl; cases hpieceHead)
  obtain ⟨n', hn', rfl⟩ := name_of_piece hvalid hparts hpiece' (by rintro rfl; cases hpieceLast)
  refine ⟨⟨hempty, hcontrol, fun c hc => ?_, fun c hc => ?_⟩, ?_, List.ne_nil_of_mem hn⟩
  · rw [hfirst] at hc
    exact (hplain n hn).unpadded.head c (hpieceHead.trans hc)
  · rw [hend] at hc
    exact (hplain n' hn').unpadded.last c (hpieceLast.trans hc)
  · have habsolute : (FsPath.parse sourceDir).absolute = false := by
      rw [FsPath.parse, hfirst]
      exact beq_eq_false_iff_ne.mpr hhead
    rw [← hparts, ← habsolute]

end Source

end RemoteHost

/-! ### The enumeration is exact -/

/-- The traversal of a source directory ends, with one record for each file
beneath it and no other; the record has the file's path relative to the
directory, and its size. -/
def EnumeratesExactly (host : RemoteHost) (sourceDir : Bytes) (random : Nat → Fin 32 → UInt32)
    (c : ControlConnection) (entries : List (Name × DirTree)) : Prop :=
  ∃ fuel records, enumerate host.options host.env sourceDir random fuel
      ⟨some c, [sourceDir], []⟩ = some (.ok records) ∧
    (records.map RemoteHost.recordKey).Perm (RemoteHost.keysOf ([], entries))

/-- The root directory is not enumerated at all. -/
theorem not_enumerates_root (host : RemoteHost) {c : ControlConnection} (hc : c.Ready)
    (random : Nat → Fin 32 → UInt32) (fuel : Nat) (records : List TreeFileRecord) :
    enumerate host.options host.env (ascii "/") random fuel ⟨some c, [ascii "/"], []⟩ ≠
      some (.ok records) := by
  intro hrun
  obtain ⟨e, link, hnlst⟩ := host.nlst_root hc
  cases fuel with
  | zero => cases hrun
  | succ fuel =>
      rw [enumerate, hnlst] at hrun
      cases hrun

/-- **When the enumeration is exact.**  For every tree, every source directory
that the options accept and that names one of its directories, and every
connection that has logged in: exactly if the directory is not `/`, and if
everything beneath it is `Suitable`. -/
theorem enumeration_exact_iff (host : RemoteHost) {sourceDir option : Bytes}
    (hvalid : validateRemoteDirArgument sourceDir option = .ok ()) {source : List Name}
    (hparts : (FsPath.parse sourceDir).parts = source.map .name)
    {entries : List (Name × DirTree)}
    (hdirectory : host.tree.find source = some (.directory entries)) {c : ControlConnection}
    (hc : c.Ready) (random : Nat → Fin 32 → UInt32) :
    EnumeratesExactly host sourceDir random c entries ↔
      sourceDir ≠ ascii "/" ∧ ∀ below t, host.tree.find (source ++ below) = some t →
        host.Suitable sourceDir below t := by
  have hitems : RemoteHost.AllFound host source [([], entries)] := by
    intro item hitem
    rw [List.mem_singleton.mp hitem, List.append_nil]
    exact hdirectory
  have hstack : [sourceDir] = RemoteHost.stackOf sourceDir [([], entries)] := rfl
  rw [EnumeratesExactly]
  constructor
  · rintro ⟨fuel, records, hrun, -⟩
    have hroot : sourceDir ≠ ascii "/" := by
      rintro rfl
      exact not_enumerates_root host hc random fuel records hrun
    have hsource := RemoteHost.spells_of_valid hvalid hroot hparts hdirectory
    rw [hstack] at hrun
    have hsuitable := RemoteHost.suitable_of_enumerate hsource hc hitems hrun
    exact ⟨hroot, hsuitable _ (List.mem_singleton_self _)⟩
  · rintro ⟨hroot, hsuitable⟩
    have hsource := RemoteHost.spells_of_valid hvalid hroot hparts hdirectory
    have hall : RemoteHost.AllSuitable host sourceDir source [([], entries)] := by
      intro item hitem
      rw [List.mem_singleton.mp hitem]
      exact hsuitable
    obtain ⟨fuel, new, hrun, hkeys⟩ := @RemoteHost.enumerate_ok host sourceDir random source hsource
      _ c [([], entries)] [] hc rfl hitems hall
    refine ⟨fuel, _, hrun, ?_⟩
    rw [List.nil_append]
    rw [List.flatMap_singleton] at hkeys
    have hsorted : (sortedFiles new).Perm new := List.perm_insertionSort _ _
    exact (hsorted.map _).trans hkeys

/-! ### A host for each tree -/

namespace DirTree

/-- The names of an absolute path. -/
def locationOf (text : Bytes) : List Name :=
  (FsPath.parse text).parts.filterMap fun part =>
    match part with
    | .up => none
    | .name n => some n

theorem locationOf_pathBelow (loc : List Name) : locationOf (pathBelow [] loc) = loc := by
  rw [locationOf, pathBelow, FsPath.parse_text, List.nil_append, FsPath.ofLocation,
    List.filterMap_map]
  exact List.filterMap_some

def noEntryStatus : Status := .runtimeError (ascii "no such entry")

def sizeAt (tree : DirTree) (path : Bytes) : Except Status Nat :=
  match tree.find (locationOf path) with
  | some (.file size _) => .ok size
  | _ => .error noEntryStatus

def mtimeAt (tree : DirTree) (path : Bytes) : Except Status Int :=
  match tree.find (locationOf path) with
  | some (.file _ mtime) => .ok mtime
  | _ => .error noEntryStatus

def listAt (tree : DirTree) (path : Bytes) : Except Status (List ControlListEntry) :=
  match tree.find (locationOf path) with
  | some (.directory entries) => .ok (entries.map fun entry => { name := entry.1.val })
  | _ => .error noEntryStatus

/-- The tree as the whole file system. -/
def fsTree (tree : DirTree) (hdirectory : ∃ entries, tree = .directory entries) : FsTree Name where
  entry loc := (tree.find loc).map DirTree.entry
  mayEnter _ := true
  mayCreate _ := true
  root := by
    obtain ⟨entries, rfl⟩ := hdirectory
    rfl
  closed loc n hne := by
    rcases hchild : tree.find (loc ++ [n]) with - | child
    · rw [hchild] at hne
      exact absurd rfl hne
    · obtain ⟨entries, hfind, -⟩ := exists_lookup hchild
      rw [hfind]
      rfl

/-- The answers of that file system. -/
def answers (tree : DirTree) (hdirectory : ∃ entries, tree = .directory entries) : Circumstances :=
  { calmCircumstances with
    tree := tree.fsTree hdirectory
    fileSizeOfPath := tree.sizeAt
    mtimeOfPath := tree.mtimeAt
    readDirectoryEntries := tree.listAt }

/-- A server over the tree. -/
def served (tree : DirTree) (hdirectory : ∃ entries, tree = .directory entries)
    (hcheck : tree.check = true) : RemoteHost where
  options := { smallServer with root := ascii "/" }
  env := tree.answers hdirectory
  base := []
  tree := tree
  directory := hdirectory
  wellFormed := wellFormed_of_check hcheck
  root := rfl
  entry loc t h := by
    show (tree.find loc).map DirTree.entry = some t.entry
    rw [h]
    rfl
  mayEnter _ := rfl
  fileSize loc size mtime h := by
    show tree.sizeAt (pathBelow [] loc) = .ok size
    rw [sizeAt, locationOf_pathBelow, h]
  mtime loc size mtime h := by
    show tree.mtimeAt (pathBelow [] loc) = .ok mtime
    rw [mtimeAt, locationOf_pathBelow, h]
  listing loc entries h := by
    refine ⟨entries.map fun entry => { name := entry.1.val }, entries, ?_, .refl _, ?_⟩
    · show tree.listAt (pathBelow [] loc) = .ok _
      rw [listAt, locationOf_pathBelow, h]
    · rw [List.map_map]
      rfl
  passive := ⟨⟨some 7, 20200⟩, rfl⟩
  send _ := rfl
  accept := rfl
  sendAllRaw _ := rfl

end DirTree

def nameA : Name := ⟨ascii "a", by decide⟩
def nameB : Name := ⟨ascii "b", by decide⟩

/-- A directory with one file. -/
def twoLevels : DirTree := .directory [(nameA, .directory [(nameB, .file 3 86400)])]

def twoLevelsHost : RemoteHost := twoLevels.served ⟨_, rfl⟩ (by decide +kernel)

theorem preparedConnection_ready : preparedConnection.Ready :=
  ⟨by decide +kernel, by decide +kernel⟩

theorem twoLevels_suitable : ∀ below t, twoLevelsHost.tree.find ([nameA] ++ below) = some t →
    twoLevelsHost.Suitable (ascii "a") below t := by
  have hlookup : ∀ n : Name, List.lookup n [(nameB, DirTree.file 3 86400)] =
      if n = nameB then some (.file 3 86400) else none := by
    intro n
    rw [List.lookup_cons]
    by_cases hn : n = nameB
    · rw [if_pos hn, beq_iff_eq.mpr hn]
    · rw [if_neg hn, beq_eq_false_iff_ne.mpr hn]
      rfl
  intro below t h
  change ((DirTree.directory [(nameB, .file 3 86400)]).find below) = some t at h
  cases below with
  | nil =>
      obtain rfl := Option.some.inj ((DirTree.find_nil _).symm.trans h)
      exact ⟨by decide +kernel, fun _ _ h => (by cases h), fun _ _ h => (by cases h)⟩
  | cons n rest =>
      rw [DirTree.find, hlookup] at h
      by_cases hn : n = nameB
      · rw [if_pos hn] at h
        cases rest with
        | cons n' rest => cases h
        | nil =>
            obtain rfl := Option.some.inj ((DirTree.find_nil _).symm.trans h)
            rw [hn]
            refine ⟨by decide +kernel, fun _ _ _ => by decide +kernel, fun size mtime h => ?_⟩
            obtain ⟨-, rfl⟩ := DirTree.file.inj h
            exact ⟨86400, by decide +kernel⟩
      · rw [if_neg hn] at h
        cases h

theorem enumeration_exact_twoLevels :
    EnumeratesExactly twoLevelsHost (ascii "a") (fun _ _ => 0) preparedConnection
      [(nameB, .file 3 86400)] :=
  (@enumeration_exact_iff twoLevelsHost (ascii "a") (ascii "--source-dir") (by decide +kernel)
    [nameA] (by decide +kernel) _ rfl _ preparedConnection_ready fun _ _ => 0).mpr
    ⟨by decide +kernel, twoLevels_suitable⟩

/-- **The root directory of the same server**: the options accept it, it has a
file beneath it, and no traversal ends well. -/
theorem enumeration_root_refused :
    validateRemoteDirArgument (ascii "/") (ascii "--source-dir") = .ok () ∧
      (FsPath.parse (ascii "/")).parts = [] ∧
      twoLevelsHost.tree.find [] = some twoLevels ∧
      twoLevelsHost.tree.find [nameA, nameB] = some (.file 3 86400) ∧
      preparedConnection.Ready ∧
      ¬EnumeratesExactly twoLevelsHost (ascii "/") (fun _ _ => 0) preparedConnection
        [(nameA, .directory [(nameB, .file 3 86400)])] := by
  refine ⟨by decide +kernel, by decide +kernel, rfl, rfl, preparedConnection_ready, ?_⟩
  rintro ⟨fuel, records, hrun, -⟩
  exact not_enumerates_root twoLevelsHost preparedConnection_ready _ fuel records hrun

end GridFlux
