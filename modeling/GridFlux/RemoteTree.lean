/-
GridFlux/RemoteTree.lean

A tree of files and directories on the control server, and what the server
answers about it: SIZE, MDTM, EPSV and NLST, each from the client's call to its
result.

`RemoteHost` says of the system's calls only that they agree with the tree.
Every answer starts and ends at a session that is logged in and in `/`
(`Ready`), unless the line is too long and the server closes the connection.
-/
import GridFlux.ControlClient
import GridFlux.PassiveAgreement
import GridFlux.TreeArtifacts
import GridFlux.KeyedList

namespace GridFlux

open FileTree KeyedList TextCodec

/-! ### The tree -/

inductive DirTree
  | file (size : Nat) (mtime : Int)
  | directory (entries : List (Name × DirTree))

namespace DirTree

def find : DirTree → List Name → Option DirTree
  | t, [] => some t
  | .file _ _, _ :: _ => none
  | .directory entries, n :: rest =>
      match entries.lookup n with
      | none => none
      | some t => t.find rest

mutual

/-- The files with their locations and sizes. -/
def files : DirTree → List (List Name × Nat)
  | .file size _ => [([], size)]
  | .directory entries => filesIn entries

def filesIn : List (Name × DirTree) → List (List Name × Nat)
  | [] => []
  | (n, t) :: rest => (t.files.map fun f => (n :: f.1, f.2)) ++ filesIn rest

end

mutual

/-- How many directories there are. -/
def directories : DirTree → Nat
  | .file _ _ => 0
  | .directory entries => directoriesIn entries + 1

def directoriesIn : List (Name × DirTree) → Nat
  | [] => 0
  | (_, t) :: rest => t.directories + directoriesIn rest

end

/-- The entry that the system shows. -/
def entry : DirTree → Entry Name
  | .file _ _ => .file true
  | .directory _ => .directory

/-- The entries of a directory. -/
def inner : DirTree → Option (List (Name × DirTree))
  | .file _ _ => none
  | .directory entries => some entries

@[simp] theorem find_nil (t : DirTree) : t.find [] = some t := find.eq_1 t

theorem find_append (t : DirTree) (loc more : List Name) :
    t.find (loc ++ more) = (t.find loc).bind fun below => below.find more := by
  induction loc generalizing t with
  | nil => rw [List.nil_append, find_nil, Option.bind_some]
  | cons n rest ih =>
      cases t with
      | file size mtime => rfl
      | directory entries =>
          rw [List.cons_append, find, find]
          cases entries.lookup n with
          | none => rfl
          | some below => exact ih below

end DirTree

namespace DirTree

theorem filesIn_eq (entries : List (Name × DirTree)) :
    filesIn entries = entries.flatMap fun entry =>
      entry.2.files.map fun f => (entry.1 :: f.1, f.2) := by
  induction entries with
  | nil => rfl
  | cons entry entries ih => rw [filesIn, ih, List.flatMap_cons]

theorem directoriesIn_eq (entries : List (Name × DirTree)) :
    directoriesIn entries = (entries.map fun entry => entry.2.directories).sum := by
  induction entries with
  | nil => rfl
  | cons entry entries ih => rw [directoriesIn, ih, List.map_cons, List.sum_cons]

end DirTree

/-- A name with no control character, no backslash and no blank at either end. -/
structure PlainName (n : Name) : Prop where
  control : ∀ c ∈ n.val, isControlCharacter c = false
  noBackslash : backslash ∉ n.val
  unpadded : Unpadded n.val

/-- The names of each directory are distinct. -/
def DirTree.Distinct (t : DirTree) : Prop :=
  ∀ loc entries, t.find loc = some (.directory entries) → (entries.map Prod.fst).Nodup

/-- Each directory has a name once, each name is plain, and each size fits the
system's type. -/
structure DirTree.WellFormed (t : DirTree) : Prop where
  distinct : t.Distinct
  plain : ∀ loc entries, t.find loc = some (.directory entries) →
    ∀ n ∈ entries.map Prod.fst, PlainName n
  size : ∀ loc size mtime, t.find loc = some (.file size mtime) → size < 2 ^ 63

namespace DirTree

instance (n : Name) : Decidable (PlainName n) :=
  decidable_of_iff ((n.val.all fun c => !isControlCharacter c && c != backslash) = true ∧
    Unpadded n.val) <| by
    simp only [List.all_eq_true, Bool.and_eq_true, Bool.not_eq_true', bne_iff_ne]
    constructor
    · rintro ⟨hall, hunpadded⟩
      exact ⟨fun c hc => (hall c hc).1, fun hmem => (hall _ hmem).2 rfl, hunpadded⟩
    · intro h
      refine ⟨fun c hc => ⟨h.control c hc, ?_⟩, h.unpadded⟩
      rintro rfl
      exact h.noBackslash hc

mutual

/-- `WellFormed`, as a test. -/
def check : DirTree → Bool
  | .file size _ => decide (size < 2 ^ 63)
  | .directory entries => decide (entries.map Prod.fst).Nodup && checkIn entries

def checkIn : List (Name × DirTree) → Bool
  | [] => true
  | (n, t) :: rest => decide (PlainName n) && t.check && checkIn rest

end

theorem check_of_mem {entries : List (Name × DirTree)} (h : checkIn entries = true) {n : Name}
    {t : DirTree} (hmem : (n, t) ∈ entries) : PlainName n ∧ t.check = true := by
  induction entries with
  | nil => cases hmem
  | cons entry rest ih =>
      obtain ⟨n', t'⟩ := entry
      rw [checkIn, Bool.and_eq_true, Bool.and_eq_true] at h
      rcases List.mem_cons.mp hmem with heq | hmem
      · obtain ⟨rfl, rfl⟩ := Prod.mk.inj heq
        exact ⟨of_decide_eq_true h.1.1, h.1.2⟩
      · exact ih h.2 hmem

theorem check_find {t t' : DirTree} (h : t.check = true) {loc : List Name}
    (hfind : t.find loc = some t') : t'.check = true := by
  induction loc generalizing t with
  | nil =>
      obtain rfl := Option.some.inj ((find_nil t).symm.trans hfind)
      exact h
  | cons n rest ih =>
      cases t with
      | file size mtime => cases hfind
      | directory entries =>
          rw [find] at hfind
          rcases hlookup : entries.lookup n with - | child
          · rw [hlookup] at hfind
            cases hfind
          · rw [hlookup] at hfind
            rw [check, Bool.and_eq_true] at h
            obtain ⟨before, after, rfl, -⟩ := List.lookup_eq_some_iff.mp hlookup
            exact ih (check_of_mem h.2 (List.mem_append_right before List.mem_cons_self)).2 hfind

theorem wellFormed_of_check {t : DirTree} (h : t.check = true) : t.WellFormed := by
  refine ⟨fun loc entries hfind => ?_, fun loc entries hfind n hn => ?_,
    fun loc size mtime hfind => ?_⟩
  · have hdirectory := check_find h hfind
    rw [check, Bool.and_eq_true] at hdirectory
    exact of_decide_eq_true hdirectory.1
  · have hdirectory := check_find h hfind
    rw [check, Bool.and_eq_true] at hdirectory
    obtain ⟨⟨n', t'⟩, hmem, rfl⟩ := List.mem_map.mp hn
    exact (check_of_mem hdirectory.2 hmem).1
  · exact of_decide_eq_true (check_find h hfind)

end DirTree

/-! ### The server -/

/-- The server's text for a location below its root. -/
def pathBelow (base loc : List Name) : Bytes := (FsPath.ofLocation (base ++ loc)).text

/-- A server whose root directory holds the tree, and whose system answers as
the tree says. -/
structure RemoteHost where
  options : ControlServerOptions
  env : Circumstances
  base : List Name
  tree : DirTree
  directory : ∃ entries, tree = .directory entries
  wellFormed : tree.WellFormed
  root : canonicalRoot env.tree env.cwd options.root = .ok (.ofLocation base)
  entry : ∀ loc t, tree.find loc = some t → env.tree.entry (base ++ loc) = some t.entry
  mayEnter : ∀ loc, env.tree.mayEnter loc = true
  fileSize : ∀ loc size mtime, tree.find loc = some (.file size mtime) →
    env.fileSizeOfPath (pathBelow base loc) = .ok size
  mtime : ∀ loc size mtime, tree.find loc = some (.file size mtime) →
    env.mtimeOfPath (pathBelow base loc) = .ok mtime
  listing : ∀ loc entries, tree.find loc = some (.directory entries) →
    ∃ listed, ∃ shown : List (Name × DirTree),
      env.readDirectoryEntries (pathBelow base loc) = .ok listed ∧ shown.Perm entries ∧
      listed.map ControlListEntry.name = shown.map fun entry => entry.1.val
  passive : ∃ passive, env.openPassiveListener options = .ok passive
  send : ∀ line, env.send line = .ok ()
  accept : env.acceptDataConnection = .ok ()
  sendAllRaw : ∀ payload, env.sendAllRaw payload = .ok ()

namespace ControlConnection

/-- The client has logged in and has not left the root directory. -/
structure Ready (c : ControlConnection) : Prop where
  authenticated : c.session.authenticated = true
  workingDirectory : c.session.workingDirectory = ascii "/"

end ControlConnection

/-! ### Paths of the client -/

namespace DirTree

variable {t child : DirTree} {loc : List Name} {entries : List (Name × DirTree)} {n : Name}

theorem find_child (h : t.find loc = some (.directory entries))
    (hchild : entries.lookup n = some child) : t.find (loc ++ [n]) = some child := by
  rw [find_append, h, Option.bind_some, find, hchild]
  exact find_nil child

/-- What lies below a location is an entry of the directory there. -/
theorem exists_lookup (h : t.find (loc ++ [n]) = some child) :
    ∃ entries, t.find loc = some (.directory entries) ∧ entries.lookup n = some child := by
  rw [find_append] at h
  obtain ⟨below, hbelow, hfind⟩ := Option.bind_eq_some_iff.mp h
  cases below with
  | file size mtime => cases hfind
  | directory entries =>
      refine ⟨entries, hbelow, ?_⟩
      rw [find] at hfind
      rcases hlookup : entries.lookup n with - | other
      · rw [hlookup] at hfind
        cases hfind
      · rw [hlookup] at hfind
        rw [← hfind]
        exact (find_nil other).symm

theorem Distinct.nodup (h : (DirTree.directory entries).Distinct) :
    (entries.map Prod.fst).Nodup := h [] entries (find_nil _)

theorem Distinct.below (h : (DirTree.directory entries).Distinct) (hmem : (n, child) ∈ entries) :
    child.Distinct := by
  intro loc inner hfind
  refine h (n :: loc) inner ?_
  rw [find, lookup_of_mem h.nodup hmem]
  exact hfind

/-- **The files of a tree** are what is found as a file. -/
theorem mem_files_iff (h : t.Distinct) {size : Nat} :
    (loc, size) ∈ t.files ↔ ∃ mtime, t.find loc = some (.file size mtime) := by
  induction loc generalizing t with
  | nil =>
      cases t with
      | file size' mtime =>
          rw [files, List.mem_singleton, find_nil]
          constructor
          · intro heq
            exact ⟨mtime, by rw [(Prod.mk.inj heq).2]⟩
          · rintro ⟨mtime', heq⟩
            rw [(file.inj (Option.some.inj heq)).1]
      | directory entries =>
          rw [files, filesIn_eq, find_nil]
          constructor
          · intro hmem
            obtain ⟨entry, -, hmem⟩ := List.mem_flatMap.mp hmem
            obtain ⟨f, -, heq⟩ := List.mem_map.mp hmem
            cases (Prod.mk.inj heq).1
          · rintro ⟨mtime, heq⟩
            cases heq
  | cons n rest ih =>
      cases t with
      | file size' mtime =>
          rw [files, List.mem_singleton]
          constructor
          · intro heq
            cases (Prod.mk.inj heq).1
          · rintro ⟨mtime, heq⟩
            cases heq
      | directory entries =>
          rw [files, filesIn_eq, find]
          constructor
          · intro hmem
            obtain ⟨⟨n', child⟩, hentry, hmem⟩ := List.mem_flatMap.mp hmem
            obtain ⟨⟨loc, size'⟩, hfile, heq⟩ := List.mem_map.mp hmem
            obtain ⟨hloc, rfl⟩ := Prod.mk.inj heq
            obtain ⟨rfl, rfl⟩ := List.cons.inj hloc
            rw [lookup_of_mem h.nodup hentry]
            exact (ih (h.below hentry)).mp hfile
          · rintro ⟨mtime, hfind⟩
            rcases hlookup : entries.lookup n with - | child
            · rw [hlookup] at hfind
              cases hfind
            · rw [hlookup] at hfind
              have hentry := mem_of_lookup hlookup
              exact List.mem_flatMap.mpr ⟨_, hentry, List.mem_map.mpr
                ⟨(rest, size), (ih (h.below hentry)).mpr ⟨mtime, hfind⟩, rfl⟩⟩

/-- No file comes twice. -/
theorem nodup_files : ∀ t : DirTree, t.Distinct → (t.files.map Prod.fst).Nodup
  | .file size mtime, _ => by
      rw [files]
      exact List.nodup_singleton _
  | .directory entries, h => by
      rw [files, filesIn_eq, List.map_flatMap, List.nodup_flatMap]
      constructor
      · intro entry hentry
        have hchild := nodup_files entry.2 (h.below hentry)
        have hmap : (entry.2.files.map fun f => (entry.1 :: f.1, f.2)).map Prod.fst =
            (entry.2.files.map Prod.fst).map (entry.1 :: ·) := by
          rw [List.map_map, List.map_map]
          rfl
        rw [hmap]
        exact hchild.map (List.cons_injective)
      · have hnames := h.nodup
        rw [List.Nodup, List.pairwise_map] at hnames
        refine hnames.imp fun {first second} hne => ?_
        intro loc hfirst hsecond
        obtain ⟨f, hf, rfl⟩ := List.mem_map.mp hfirst
        obtain ⟨g, hg, heq⟩ := List.mem_map.mp hsecond
        obtain ⟨f', -, rfl⟩ := List.mem_map.mp hf
        obtain ⟨g', -, rfl⟩ := List.mem_map.mp hg
        exact hne (List.cons.inj heq).1.symm
termination_by t => sizeOf t
decreasing_by
  have hlt := List.sizeOf_lt_of_mem hentry
  obtain ⟨n, child⟩ := entry
  simp only [Prod.mk.sizeOf_spec, directory.sizeOf_spec] at hlt ⊢
  omega

/-- The names of a location that exists are plain. -/
theorem WellFormed.plainName (hwell : t.WellFormed) (h : t.find loc = some child) :
    ∀ n ∈ loc, PlainName n := by
  induction loc using List.reverseRecOn generalizing child with
  | nil => exact fun n hn => by cases hn
  | append_singleton loc last ih =>
      obtain ⟨entries, hdirectory, hlookup⟩ := exists_lookup h
      intro n hn
      rcases List.mem_append.mp hn with hn | hn
      · exact ih hdirectory n hn
      · rw [List.mem_singleton.mp hn]
        exact hwell.plain loc entries hdirectory last
          (List.mem_map_of_mem (mem_of_lookup hlookup))

end DirTree

/-- The path can stand on a command line. -/
structure Sendable (path : Bytes) : Prop where
  path_ne : path ≠ []
  control : ∀ c ∈ path, isControlCharacter c = false
  unpadded : Unpadded path

/-- The client's text for a location. -/
structure Spells (path : Bytes) (loc : List Name) : Prop extends Sendable path where
  parse : FsPath.parse path = ⟨false, loc.map .name⟩
  ne : loc ≠ []

namespace Spells

variable {path : Bytes} {loc : List Name} {n : Name}

theorem ne_root (h : Spells path loc) : path ≠ ascii "/" := by
  rintro rfl
  have habsolute := congrArg FsPath.absolute h.parse
  cases habsolute

theorem join_eq (h : Spells path loc) (text : Bytes) :
    joinRemotePath path text = path ++ 47 :: text := by
  rw [joinRemotePath, if_neg h.ne_root, if_neg h.path_ne, List.append_assoc]
  rfl

/-- One name further. -/
theorem child (h : Spells path loc) (hn : PlainName n) :
    Spells (joinRemotePath path n.val) (loc ++ [n]) := by
  obtain ⟨hne, hslash, hdot, hup⟩ := n.property
  have hpieces : (pieces 47 n.val).filterMap partOf = [.name n] := by
    rw [pieces_of_notMem 47 hslash hne]
    exact congrArg (·.toList) (partOf_partText (.name n))
  rw [h.join_eq]
  refine ⟨⟨by simp, fun c hc => ?_, fun c hc => ?_, fun c hc => ?_⟩, ?_, by simp⟩
  · rcases List.mem_append.mp hc with hc | hc
    · exact h.control c hc
    · rcases List.mem_cons.mp hc with rfl | hc
      · rfl
      · exact hn.control c hc
  · rw [List.head?_append_of_ne_nil _ h.path_ne] at hc
    exact h.unpadded.head c hc
  · rw [List.getLast?_append, List.getLast?_cons, List.getLast?_eq_some_getLast hne] at hc
    exact hn.unpadded.last c ((List.getLast?_eq_some_getLast hne).trans hc)
  · rw [FsPath.parse, List.head?_append_of_ne_nil _ h.path_ne]
    have hparse := h.parse
    rw [FsPath.parse, FsPath.mk.injEq] at hparse
    rw [hparse.1, FsPath.elements_append, hparse.2, hpieces, List.map_append]
    rfl

end Spells

/-! ### The server finds the entry -/

/-- A location below the root is resolved to itself. -/
theorem resolveExisting_found {t : FsTree Name} {cwd base loc : List Name}
    (hbase : t.Found base) (hfound : t.Found (base ++ loc)) (virtualPath : Bytes)
    (kind : ControlPathKind) (commandName : Bytes) :
    resolveExisting t cwd (.ofLocation base) (.ofLocation (base ++ loc)) virtualPath kind
        commandName =
      if kind = .existingFile then
        if t.isRegular (base ++ loc) then .ok ⟨pathBelow base loc, virtualPath⟩
        else refusePath commandName " path is not a regular file"
      else
        if t.isDirectory (base ++ loc) then .ok ⟨pathBelow base loc, virtualPath⟩
        else refusePath commandName " path is not a directory" := by
  have hstatus : t.status cwd (.ofLocation (base ++ loc)) = .ok (base ++ loc) := hfound.status
  have hexists : t.pathExists cwd (.ofLocation (base ++ loc)) = true := by
    rw [FsTree.pathExists, hstatus]
  have hinside : isInsideRoot t cwd (.ofLocation base) (.ofLocation (base ++ loc)) = true :=
    (isInsideRoot_iff hbase hfound).mpr (List.prefix_append base loc)
  have hregular : t.isRegularFile cwd (.ofLocation (base ++ loc)) = t.isRegular (base ++ loc) := by
    rw [FsTree.isRegularFile, hstatus]
  have hdirectory : t.isDirectoryPath cwd (.ofLocation (base ++ loc)) =
      t.isDirectory (base ++ loc) := by
    rw [FsTree.isDirectoryPath, hstatus]
  rw [resolveExisting, hexists, if_neg Bool.false_ne_true.symm, hfound.weaklyCanonical]
  dsimp only
  rw [hinside, if_neg Bool.false_ne_true.symm, hregular, hdirectory]
  rfl

/-- Names come out of the normal form as they went in. -/
theorem foldl_normalStep_names (absolute : Bool) (names : List Name) :
    (names.map PathPart.name).foldl (FsPath.normalStep absolute) [] = names.map .name := by
  induction names using List.reverseRecOn with
  | nil => rfl
  | append_singleton names n ih =>
      rw [List.map_append, List.foldl_append, ih]
      rfl

/-- The virtual path of a client's path, in the directory `/`. -/
theorem resolveVirtualPath_spells {path : Bytes} {loc : List Name} (h : Spells path loc)
    (allowEmptyPath : Bool) :
    resolveVirtualPath (ascii "/") path allowEmptyPath =
      .ok (47 :: FsPath.text ⟨false, loc.map .name⟩) := by
  have hparts : loc.map PathPart.name ≠ [] := fun hnil => h.ne (List.map_eq_nil_iff.mp hnil)
  have hnormal : ((FsPath.parse (ascii "/").tail).append
      ⟨false, loc.map PathPart.name⟩).lexicallyNormal = ⟨false, loc.map .name⟩ := by
    show FsPath.lexicallyNormal ⟨false, [] ++ loc.map .name⟩ = _
    rw [List.nil_append, FsPath.lexicallyNormal, foldl_normalStep_names]
  rw [resolveVirtualPath, if_neg (fun hand => h.path_ne hand.1), h.parse]
  dsimp only
  rw [if_neg Bool.false_ne_true, if_neg h.path_ne, if_neg (show ascii "/" ≠ [] by decide),
    if_pos (show (ascii "/").head? = some 47 from rfl), hnormal, if_neg (by simp),
    virtualPathFromRelative, if_neg hparts]

namespace RemoteHost

variable (host : RemoteHost) {loc : List Name} {t : DirTree} {path : Bytes}

theorem found (h : host.tree.find loc = some t) : host.env.tree.Found (host.base ++ loc) := by
  constructor
  · rw [host.entry loc t h]
    cases t with
    | file size mtime => exact .inr ⟨true, rfl⟩
    | directory entries => exact .inl rfl
  · exact fun above n _ => host.mayEnter above

/-- What the server makes of the path of an entry. -/
theorem resolve_eq {c : ControlConnection} (hc : c.Ready) (response : ControlResponse)
    (hpath : Spells response.path loc) (h : host.tree.find loc = some t) (kind : ControlPathKind)
    (hkind : kind ≠ .storTarget) (commandName : Bytes) :
    c.resolve host.options host.env response kind commandName =
      if kind = .existingFile then
        if t.entry = .file true then
          .ok ⟨pathBelow host.base loc, 47 :: FsPath.text ⟨false, loc.map .name⟩⟩
        else refusePath commandName " path is not a regular file"
      else
        if t.entry = .directory then
          .ok ⟨pathBelow host.base loc, 47 :: FsPath.text ⟨false, loc.map .name⟩⟩
        else refusePath commandName " path is not a directory" := by
  have hbase : host.env.tree.Found host.base := by
    have hroot := host.found (DirTree.find_nil host.tree)
    rwa [List.append_nil] at hroot
  have hvirtual : (47 :: FsPath.text ⟨false, loc.map PathPart.name⟩ : Bytes) ≠ ascii "/" := by
    intro heq
    have hparts := congrArg (fun text => (FsPath.parse (text.drop 1)).parts) heq
    rw [List.drop_one, List.tail_cons, FsPath.parse_text] at hparts
    exact hpath.ne (List.map_eq_nil_iff.mp hparts)
  have hcandidate : candidatePath (.ofLocation host.base)
      (47 :: FsPath.text ⟨false, loc.map .name⟩) = .ofLocation (host.base ++ loc) := by
    rw [candidatePath, List.drop_one, List.tail_cons, FsPath.parse_text, FsPath.append,
      FsPath.ofLocation, FsPath.ofLocation, List.map_append]
    rfl
  have hentry := host.entry loc t h
  rw [ControlConnection.resolve, resolveControlPath, hc.workingDirectory,
    resolveVirtualPath_spells hpath]
  dsimp only
  rw [if_neg (fun hand => hvirtual hand.1), host.root]
  dsimp only
  rw [if_neg hkind, hcandidate, resolveExisting_found hbase (host.found h), FsTree.isRegular,
    FsTree.isDirectory, hentry]
  cases t with
  | file size mtime => rfl
  | directory entries => rfl

end RemoteHost

/-! ### Commands served -/

/-- The line of a command with this path is short enough for the server; all
five verbs have four letters. -/
def FitsLine (path : Bytes) : Prop := path.length + 7 ≤ ControlServer.kMaxControlLine

instance (path : Bytes) : Decidable (FitsLine path) := inferInstanceAs (Decidable (_ ≤ _))

theorem length_commandText (verb : TreeVerb) (path : Bytes) :
    (commandText verb path).length = path.length + 7 := by
  have hverb : verb.text.length = 4 := by cases verb <;> decide +kernel
  rw [commandText, List.length_append, List.length_append, List.length_append, hverb]
  show 4 + 1 + path.length + 2 = path.length + 7
  rw [Nat.add_comm (4 + 1)]

namespace ControlConnection

variable {options : ControlServerOptions} {env : Circumstances} {c c' : ControlConnection}
  {verb : TreeVerb} {path : Bytes}

/-- The connection with one more reply out. -/
def replied (c : ControlConnection) (line : Bytes) : ControlConnection :=
  { c with sent := c.sent ++ [line] }

theorem Ready.replied (hc : c.Ready) (line : Bytes) : (c.replied line).Ready :=
  ⟨hc.authenticated, hc.workingDirectory⟩

/-- The loop on the line of a path. -/
theorem serve_line (hpath : Sendable path) :
    c.serve options env (verb.text ++ ascii " " ++ path) =
      { c with session := (c.session.handleCommand
        { type := verb.type, verb := verb.text, argument := path }).2 }.perform options env
        (c.session.handleCommand { type := verb.type, verb := verb.text, argument := path }).1 := by
  rw [serve, parseControlCommand_line hpath.path_ne hpath.unpadded]

theorem Ready.handle_size (hc : c.Ready) (hpath : path ≠ []) :
    c.session.handleCommand { type := .size, verb := ascii "SIZE", argument := path } =
      ({ action := .querySize, path := path }, c.session) := by
  rw [ControlSession.handleCommand, if_neg (fun h => by cases h),
    if_neg (fun h => by cases h), if_neg fun hand => hand.1 hc.authenticated]
  exact if_neg hpath

theorem Ready.handle_mdtm (hc : c.Ready) (hpath : path ≠ []) :
    c.session.handleCommand { type := .mdtm, verb := ascii "MDTM", argument := path } =
      ({ action := .queryMdtm, path := path }, c.session) := by
  rw [ControlSession.handleCommand, if_neg (fun h => by cases h),
    if_neg (fun h => by cases h), if_neg fun hand => hand.1 hc.authenticated]
  exact if_neg hpath

theorem Ready.handle_nlst (hc : c.Ready) (hpassive : c.session.passiveReady = true) :
    c.session.handleCommand { type := .nlst, verb := ascii "NLST", argument := path } =
      ({ action := .startNlst, path := path, connections := c.session.connections },
        { c.session with passiveReady := false }) := by
  rw [ControlSession.handleCommand, if_neg (fun h => by cases h),
    if_neg (fun h => by cases h), if_neg fun hand => hand.1 hc.authenticated]
  exact if_neg fun hnot => hnot hpassive

end ControlConnection

namespace ControlClient

variable {options : ControlServerOptions} {env : Circumstances} {c c' : ControlConnection}
  {verb : TreeVerb} {path : Bytes}

theorem exchange_served (hpath : Sendable path) (hfits : FitsLine path)
    (hserve : c.serve options env (verb.text ++ ascii " " ++ path) = some c') :
    exchange options env (some c) (verb.text ++ ascii " " ++ path) =
      ((c'.sent.drop c.sent.length, c'.listed.drop c.listed.length), some c') := by
  have hread := @readLine_commandText verb path hpath.path_ne hpath.control _
    (show [commandText verb path].flatten = commandText verb path from List.append_nil _)
  rw [if_pos (by rw [length_commandText]; exact hfits)] at hread
  rw [commandText] at hread
  rw [exchange, hread]
  dsimp only
  rw [hserve]

/-- A line that is too long ends the connection. -/
theorem exchange_tooLong (hpath : Sendable path) (hfits : ¬FitsLine path) :
    exchange options env (some c) (verb.text ++ ascii " " ++ path) = (([], []), none) := by
  have hread := @readLine_commandText verb path hpath.path_ne hpath.control _
    (show [commandText verb path].flatten = commandText verb path from List.append_nil _)
  rw [if_neg (by rw [length_commandText]; exact hfits)] at hread
  rw [commandText] at hread
  rw [exchange, hread]

/-- A command with one reply. -/
theorem command_replied {code : Nat} {text : Bytes} (hpath : Sendable path)
    (hfits : FitsLine path) (hcode : (decimal code).length = 3)
    (hserve : c.serve options env (verb.text ++ ascii " " ++ path) =
      some (c.replied (formatReply code text))) :
    command options env (some c) (verb.text ++ ascii " " ++ path) =
      (.ok ⟨code, [formatReply code text]⟩, some (c.replied (formatReply code text))) := by
  have hsent : (c.replied (formatReply code text)).sent.drop c.sent.length =
      [formatReply code text] := List.drop_left
  rw [command, exchange_served hpath hfits hserve, hsent,
    readReply_formatReply text hcode]
  rfl

theorem command_tooLong (hpath : Sendable path) (hfits : ¬FitsLine path) :
    command options env (some c) (verb.text ++ ascii " " ++ path) =
      (.error (.runtimeError (ascii "control connection closed")), none) := by
  rw [command, exchange_tooLong hpath hfits]
  rfl

end ControlClient

/-! ### The answers of the host -/

namespace RemoteHost

variable (host : RemoteHost) {c : ControlConnection} {loc : List Name} {path : Bytes}

theorem reply_eq (c : ControlConnection) (code : Nat) (text : Bytes) :
    host.env.reply c code text = c.replied (formatReply code text) := by
  rw [Circumstances.reply, ControlConnection.sendLine_ok (host.send _)]
  rfl

section Found

variable (hc : c.Ready) (hpath : Spells path loc)

include hc hpath

/-- SIZE and MDTM of an entry, as the loop serves them. -/
theorem serve_size : c.serve host.options host.env (TreeVerb.size.text ++ ascii " " ++ path) =
    some (c.runSize host.options host.env { action := .querySize, path := path }) := by
  rw [ControlConnection.serve_line hpath.toSendable]
  show ({ c with session := (c.session.handleCommand
    { type := .size, verb := ascii "SIZE", argument := path }).2 } : ControlConnection).perform
      host.options host.env (c.session.handleCommand
        { type := .size, verb := ascii "SIZE", argument := path }).1 = _
  rw [hc.handle_size hpath.path_ne]
  rfl

theorem serve_mdtm : c.serve host.options host.env (TreeVerb.mdtm.text ++ ascii " " ++ path) =
    some (c.runMdtm host.options host.env { action := .queryMdtm, path := path }) := by
  rw [ControlConnection.serve_line hpath.toSendable]
  show ({ c with session := (c.session.handleCommand
    { type := .mdtm, verb := ascii "MDTM", argument := path }).2 } : ControlConnection).perform
      host.options host.env (c.session.handleCommand
        { type := .mdtm, verb := ascii "MDTM", argument := path }).1 = _
  rw [hc.handle_mdtm hpath.path_ne]
  rfl

variable {size : Nat} {mtime : Int} {entries : List (Name × DirTree)}

/-- SIZE of a file. -/
theorem size_file (hfits : FitsLine path)
    (hfile : host.tree.find loc = some (.file size mtime)) :
    ∃ c' : ControlConnection, c'.Ready ∧
      ControlClient.size host.options host.env (some c) path = (.ok size, some c') := by
  have hresolve := host.resolve_eq hc { action := .querySize, path := path } hpath hfile
    .existingFile (by decide) (ascii "SIZE")
  rw [if_pos rfl, DirTree.entry, if_pos rfl] at hresolve
  have hserve := host.serve_size hc hpath
  rw [ControlConnection.runSize, hresolve] at hserve
  dsimp only at hserve
  rw [host.fileSize loc size mtime hfile] at hserve
  dsimp only at hserve
  rw [host.reply_eq] at hserve
  have hcommand := ControlClient.command_replied hpath.toSendable hfits (by decide +kernel) hserve
  have hsize := (host.wellFormed.size loc size mtime hfile).trans (show 2 ^ 63 < 2 ^ 64 by decide)
  rw [ControlClient.size, hcommand]
  dsimp only
  rw [Except.bind, ControlClient.readSize_formatReply hsize]
  exact ⟨_, hc.replied _, rfl⟩

/-- SIZE of a directory is refused. -/
theorem size_directory (hfits : FitsLine path)
    (hdirectory : host.tree.find loc = some (.directory entries)) :
    ∃ e, ∃ c' : ControlConnection, c'.Ready ∧
      ControlClient.size host.options host.env (some c) path = (.error e, some c') := by
  have hresolve := host.resolve_eq hc { action := .querySize, path := path } hpath hdirectory
    .existingFile (by decide) (ascii "SIZE")
  rw [if_pos rfl, if_neg (fun h => by cases h)] at hresolve
  have hserve := host.serve_size hc hpath
  rw [ControlConnection.runSize, hresolve, refusePath] at hserve
  dsimp only at hserve
  rw [host.reply_eq] at hserve
  have hcommand := ControlClient.command_replied hpath.toSendable hfits (by decide +kernel) hserve
  rw [ControlClient.size, hcommand]
  exact ⟨.runtimeError (ascii "SIZE rejected"), _, hc.replied _, rfl⟩

/-- MDTM of a file: the client reads what the server writes. -/
theorem mdtm_file (hfits : FitsLine path)
    (hfile : host.tree.find loc = some (.file size mtime)) :
    ∃ c' : ControlConnection, c'.Ready ∧
      ControlClient.mdtm host.options host.env (some c) path =
        (ControlClient.readMdtm
          ⟨213, [formatReply 213 (formatMdtmTime host.env.unspecified mtime)]⟩, some c') := by
  have hresolve := host.resolve_eq hc { action := .queryMdtm, path := path } hpath hfile
    .existingFile (by decide) (ascii "MDTM")
  rw [if_pos rfl, DirTree.entry, if_pos rfl] at hresolve
  have hserve := host.serve_mdtm hc hpath
  rw [ControlConnection.runMdtm, hresolve] at hserve
  dsimp only at hserve
  rw [host.mtime loc size mtime hfile] at hserve
  dsimp only at hserve
  rw [host.reply_eq] at hserve
  have hcommand := ControlClient.command_replied hpath.toSendable hfits (by decide +kernel) hserve
  rw [ControlClient.mdtm, hcommand]
  dsimp only
  rw [Except.bind]
  exact ⟨_, hc.replied _, rfl⟩

end Found

/-! EPSV and NLST. -/

theorem scanPorts_port {env : Circumstances} {dataPortBase remaining offset : Nat}
    {passive : PassiveListener} (h : env.scanPorts dataPortBase remaining offset = .ok passive) :
    passive.port ≠ 0 ∧ passive.port ≤ 65535 := by
  induction remaining generalizing offset with
  | zero => cases h
  | succ remaining ih =>
      rw [Circumstances.scanPorts] at h
      split at h
      · cases h
      · rename_i hrange
        split at h
        · exact ih h
        · rw [not_or] at hrange
          rw [← Except.ok.inj h]
          exact ⟨hrange.1, Nat.not_lt.mp hrange.2⟩

/-- The connection after an EPSV. -/
def opened (c : ControlConnection) (passive : PassiveListener) : ControlConnection :=
  ({ c with passive := passive, session := c.session.markPassiveReady }).replied
    (Circumstances.epsvReply passive.port)

theorem epsv_ok (hc : c.Ready) :
    ∃ passive, host.env.openPassiveListener host.options = .ok passive ∧
      ControlClient.epsv host.options host.env (some c) =
        (.ok passive.port, some (opened c passive)) := by
  obtain ⟨passive, hpassive⟩ := host.passive
  have hline : ControlServer.readLine [] [ascii "EPSV" ++ [carriageReturn, newline]] =
      .ok (ascii "EPSV", []) := by decide +kernel
  have hparse : parseControlCommand (ascii "EPSV") =
      .ok { type := .epsv, verb := ascii "EPSV", argument := [] } := by decide +kernel
  have hhandle : c.session.handleCommand { type := .epsv, verb := ascii "EPSV", argument := [] } =
      ({ action := .openPassiveEpsv }, c.session) := by
    rw [ControlSession.handleCommand, if_neg (fun h => by cases h), if_neg (fun h => by cases h),
      if_neg fun hand => hand.1 hc.authenticated]
  have hserve : c.serve host.options host.env (ascii "EPSV") = some (opened c passive) := by
    rw [ControlConnection.serve, hparse]
    dsimp only
    rw [hhandle]
    show c.openPassive host.options host.env true = _
    rw [ControlConnection.openPassive, hpassive]
    dsimp only
    rw [if_pos rfl, ControlConnection.sendLine_ok (host.send _)]
    rfl
  have hsent : (opened c passive).sent.drop c.sent.length =
      [Circumstances.epsvReply passive.port] := List.drop_left
  have hreply := ControlClient.readReply_formatReply
    (ascii "Entering Extended Passive Mode (|||" ++ decimal passive.port ++ ascii "|)")
    (show (decimal 229).length = 3 by decide +kernel) []
  refine ⟨passive, hpassive, ?_⟩
  rw [ControlClient.epsv, ControlClient.command, ControlClient.exchange, hline]
  dsimp only
  rw [hserve]
  dsimp only
  rw [hsent, Circumstances.epsvReply, hreply]
  show (ControlClient.readPort ⟨229, [Circumstances.epsvReply passive.port]⟩, _) = _
  rw [ControlClient.readPort_epsvReply (scanPorts_port hpassive)]

/-- The connection as NLST finds it: logged in, the listener open and the flag
taken back. -/
def atListing (c : ControlConnection) (passive : PassiveListener) : ControlConnection :=
  { opened c passive with
    session := { (opened c passive).session with passiveReady := false } }

theorem serve_nlst (hc : c.Ready) (hpath : Sendable path) (passive : PassiveListener) :
    (opened c passive).serve host.options host.env (TreeVerb.nlst.text ++ ascii " " ++ path) =
      some ((atListing c passive).runListLike host.options host.env
        { action := .startNlst, path := path, connections := c.session.connections } true) := by
  have hready : (opened c passive).Ready := ⟨hc.authenticated, hc.workingDirectory⟩
  rw [ControlConnection.serve_line hpath]
  show ({ opened c passive with session := ((opened c passive).session.handleCommand
    { type := .nlst, verb := ascii "NLST", argument := path }).2 } : ControlConnection).perform
      host.options host.env ((opened c passive).session.handleCommand
        { type := .nlst, verb := ascii "NLST", argument := path }).1 = _
  rw [hready.handle_nlst rfl]
  rfl

/-- A listing that goes through. -/
theorem runListLike_ok (hc : c.Ready) (hopen : c.passive.fd ≠ none) {response : ControlResponse}
    {target : ResolvedControlPath}
    (hresolve : c.resolve host.options host.env response .existingDirectory (ascii "NLST") =
      .ok target) {listed : List ControlListEntry}
    (hlisted : host.env.readDirectoryEntries target.fullPath = .ok listed) :
    (c.runListLike host.options host.env response true).Ready ∧
      (c.runListLike host.options host.env response true).sent =
        c.sent ++ [formatReply 150 (ascii "Opening NLST data"),
          formatReply 226 (ascii "NLST complete")] ∧
      (c.runListLike host.options host.env response true).listed =
        c.listed ++ [formatNlst listed] := by
  have hprelude : ControlConnection.listPrelude true =
      formatReply 150 (ascii "Opening NLST data") := by decide +kernel
  have hcomplete : ControlConnection.listName true ++ ascii " complete" = ascii "NLST complete" := by
    decide +kernel
  rw [ControlConnection.runListLike, if_neg hopen, hcomplete,
    show ControlConnection.listName true = ascii "NLST" from rfl, hresolve]
  dsimp only
  rw [hlisted]
  dsimp only
  rw [ControlConnection.sendLine_ok (host.send _)]
  dsimp only
  rw [Circumstances.sendAsciiData, if_neg hopen, host.accept]
  dsimp only
  rw [host.sendAllRaw, hprelude]
  dsimp only
  rw [host.reply_eq]
  refine ⟨⟨hc.authenticated, hc.workingDirectory⟩, ?_, rfl⟩
  exact List.append_assoc _ _ _

/-- A listing that the server refuses to open. -/
theorem runListLike_refused (hopen : c.passive.fd ≠ none) {response : ControlResponse} {e : Status}
    (hresolve : c.resolve host.options host.env response .existingDirectory (ascii "NLST") =
      .error e) :
    c.runListLike host.options host.env response true =
      c.dropListener.replied (formatReply 550 e.message) := by
  rw [ControlConnection.runListLike, if_neg hopen,
    show ControlConnection.listName true = ascii "NLST" from rfl, hresolve]
  dsimp only
  rw [host.reply_eq]

/-- NLST of a directory. -/
theorem nlst_directory (hc : c.Ready) (hpath : Spells path loc) (hfits : FitsLine path)
    {entries : List (Name × DirTree)} (hdirectory : host.tree.find loc = some (.directory entries)) :
    ∃ shown : List (Name × DirTree), ∃ c' : ControlConnection, c'.Ready ∧ shown.Perm entries ∧
      ControlClient.nlst host.options host.env (some c) path =
        (.ok (shown.map fun entry => entry.1.val), some c') := by
  obtain ⟨passive, hpassive, hepsv⟩ := host.epsv_ok hc
  have hopen : (atListing c passive).passive.fd ≠ none :=
    Option.isSome_iff_ne_none.mp (ControlConnection.openPassiveListener_isSome hpassive)
  have hready : (atListing c passive).Ready := ⟨hc.authenticated, hc.workingDirectory⟩
  have hresolve := host.resolve_eq hready
    { action := .startNlst, path := path, connections := c.session.connections } hpath hdirectory
    .existingDirectory (by decide) (ascii "NLST")
  rw [if_neg (by decide), DirTree.entry, if_pos rfl] at hresolve
  obtain ⟨listed, shown, hlisted, hshown, hnames⟩ := host.listing loc entries hdirectory
  obtain ⟨hready', hsent, hpayload⟩ := host.runListLike_ok hready hopen hresolve hlisted
  have hserve := host.serve_nlst hc hpath.toSendable passive
  generalize (atListing c passive).runListLike host.options host.env _ true = c' at *
  have hplain : ∀ entry ∈ listed, entry.name ≠ [] ∧ newline ∉ entry.name := by
    intro entry hentry
    have hmem := @List.mem_map_of_mem _ _ _ _ ControlListEntry.name hentry
    rw [hnames] at hmem
    obtain ⟨⟨n, t⟩, hmem, hname⟩ := List.mem_map.mp hmem
    have hn := host.wellFormed.plain loc entries hdirectory n
      (List.mem_map_of_mem (hshown.subset hmem))
    rw [← hname]
    refine ⟨n.property.1, fun hnewline => ?_⟩
    have hcontrol := hn.control _ hnewline
    cases hcontrol
  have hsent' : c'.sent.drop (opened c passive).sent.length =
      [formatReply 150 (ascii "Opening NLST data"), formatReply 226 (ascii "NLST complete")] := by
    rw [hsent]
    exact List.drop_left
  have hpayload' : c'.listed.drop (opened c passive).listed.length = [formatNlst listed] := by
    rw [hpayload]
    exact List.drop_left
  refine ⟨shown, c', hready', hshown, ?_⟩
  rw [ControlClient.nlst, hepsv]
  dsimp only
  rw [ControlClient.exchange_served hpath.toSendable hfits hserve]
  dsimp only
  rw [hsent', hpayload', ControlClient.readListing_ok, ControlClient.readNames_formatNlst hplain,
    hnames]

/-- NLST of a path that does not fit on the line. -/
theorem nlst_tooLong (hc : c.Ready) (hpath : Sendable path) (hfits : ¬FitsLine path) :
    ∃ e link, ControlClient.nlst host.options host.env (some c) path = (.error e, link) := by
  obtain ⟨passive, -, hepsv⟩ := host.epsv_ok hc
  rw [ControlClient.nlst, hepsv]
  dsimp only
  rw [ControlClient.exchange_tooLong hpath hfits]
  exact ⟨_, _, rfl⟩

/-- **NLST of `/`** is refused: the server takes relative paths only. -/
theorem nlst_root (hc : c.Ready) :
    ∃ e link, ControlClient.nlst host.options host.env (some c) (ascii "/") = (.error e, link) := by
  obtain ⟨passive, hpassive, hepsv⟩ := host.epsv_ok hc
  have hopen : (atListing c passive).passive.fd ≠ none :=
    Option.isSome_iff_ne_none.mp (ControlConnection.openPassiveListener_isSome hpassive)
  have hpath : Sendable (ascii "/") := by
    refine ⟨by decide, fun c hc => ?_, by decide +kernel⟩
    rw [List.mem_singleton.mp hc]
    rfl
  have hresolve : (atListing c passive).resolve host.options host.env
      { action := .startNlst, path := ascii "/", connections := c.session.connections }
      .existingDirectory (ascii "NLST") =
        .error (.invalidArgument (ascii "NLST path must be relative")) := by
    have hvirtual : resolveVirtualPath (ascii "/") (ascii "/") true =
        .error (.invalidArgument (ascii "path must be relative")) := by decide +kernel
    have hdirectory : (atListing c passive).session.workingDirectory = ascii "/" :=
      hc.workingDirectory
    rw [ControlConnection.resolve, resolveControlPath, hdirectory]
    dsimp only
    rw [show decide (ControlPathKind.existingDirectory = .existingDirectory) = true from rfl,
      hvirtual]
    rfl
  have hserve := host.serve_nlst hc hpath passive
  rw [host.runListLike_refused hopen hresolve] at hserve
  have hsent : (((atListing c passive).dropListener.replied (formatReply 550 (Status.message
      (.invalidArgument (ascii "NLST path must be relative"))))).sent.drop
        (opened c passive).sent.length) =
      [formatReply 550 (ascii "NLST path must be relative")] := List.drop_left
  rw [ControlClient.nlst, hepsv]
  dsimp only
  rw [ControlClient.exchange_served hpath (by decide) hserve]
  dsimp only
  rw [hsent, ControlClient.readListing,
    ControlClient.readReply_formatReply _ (by decide +kernel)]
  exact ⟨_, _, rfl⟩

theorem nlst_closed (path : Bytes) :
    ControlClient.nlst host.options host.env none path =
      (.error (.runtimeError (ascii "control connection closed")), none) := rfl

end RemoteHost

end GridFlux
