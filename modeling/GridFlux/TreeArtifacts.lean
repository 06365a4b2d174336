/-
GridFlux/TreeArtifacts.lean

The files that the server keeps for the files of one uploaded tree: the output
itself, its manifest and its part file, whose names are the output's with a
suffix.

The suffixes hold no separator and cannot be confused with one another, so two
records of a tree get in each other's way exactly when the path of one is, or
lies below, the other's path with one of its suffixes (`artifacts_apart_iff`).
-/
import GridFlux.ControlConnection
import GridFlux.ControlLine

namespace GridFlux

open FileTree TextCodec

/-! ### Names on the server -/

/-- The virtual path of a STOR target: what `resolveVirtualPath` makes of the
argument, which the server has trimmed, in the directory a session starts
in. -/
def serverPath (dest relative : Bytes) : Option Bytes :=
  let argument := trim (joinRemotePath dest relative)
  -- such an argument names the directory that is made for it, no file
  if argument.getLast? = some slash then none
  else
    match resolveVirtualPath (ascii "/") argument false with
    | .error _ => none
    | .ok virtualPath => if virtualPath = ascii "/" then none else some virtualPath

/-- What stands before the virtual path in a full path; the root directory adds
nothing to its own separator. -/
def rootPrefix (base : List Name) : Bytes :=
  if base = [] then [] else (FsPath.ofLocation base).text

/-- The output file for a path of the tree. -/
def serverOutput (base : List Name) (dest relative : Bytes) : Option Bytes :=
  (serverPath dest relative).map (rootPrefix base ++ ·)

/-- A file of the tree and the numbers drawn for its transfer. -/
structure StoredFile where
  relativePath : Bytes
  random : Fin 32 → UInt32

namespace StoredFile

def transferId (f : StoredFile) : Bytes := generateTransferId f.random

/-- The files that the server makes for one record, none if it refuses the
path. -/
def artifacts (base : List Name) (dest : Bytes) (f : StoredFile) : List Bytes :=
  match serverOutput base dest f.relativePath with
  | none => []
  | some output => [output, manifestPathForOutput output, tempPathForOutput output f.transferId]

end StoredFile

/-- The second path is the first one or lies below it. -/
def AtOrBelow (p q : Bytes) : Prop := p = q ∨ p ++ [slash] <+: q

/-- No two files can have these paths. -/
def Clash (p q : Bytes) : Prop := AtOrBelow p q ∨ AtOrBelow q p

instance (p q : Bytes) : Decidable (AtOrBelow p q) := inferInstanceAs (Decidable (_ ∨ _))

instance (p q : Bytes) : Decidable (Clash p q) := inferInstanceAs (Decidable (_ ∨ _))

/-- No file of the one record is in the way of a file of the other. -/
def ArtifactsApart (base : List Name) (dest : Bytes) (f g : StoredFile) : Prop :=
  ∀ p ∈ f.artifacts base dest, ∀ q ∈ g.artifacts base dest, ¬Clash p q

/-- The second path is not, and does not lie below, a file kept for the
first. -/
def KeepsClear (p transferId q : Bytes) : Prop :=
  ¬AtOrBelow p q ∧ ¬AtOrBelow (manifestPathForOutput p) q ∧
    ¬AtOrBelow (tempPathForOutput p transferId) q

/-- The same of the paths the server gives two records. -/
def PathsApart (dest : Bytes) (f g : StoredFile) : Prop :=
  ∀ p ∈ serverPath dest f.relativePath, ∀ q ∈ serverPath dest g.relativePath,
    KeepsClear p f.transferId q ∧ KeepsClear q g.transferId p

theorem text_ofLocation_append (base : List Name) {names : List Name} (hne : names ≠ []) :
    (FsPath.ofLocation (base ++ names)).text =
      rootPrefix base ++ 47 :: TextCodec.join 47 (names.map Subtype.val) := by
  have htexts : ∀ loc : List Name, (loc.map PathPart.name).map partText = loc.map Subtype.val :=
    fun loc => by
      rw [List.map_map]
      rfl
  rw [FsPath.text, FsPath.ofLocation, if_pos rfl, htexts, rootPrefix]
  split
  · rename_i hbase
    rw [hbase]
    rfl
  · rename_i hbase
    rw [List.map_append, join_append _ (fun h => hbase (List.map_eq_nil_iff.mp h))
      (fun h => hne (List.map_eq_nil_iff.mp h)), FsPath.text,
      FsPath.ofLocation, if_pos rfl, htexts]
    rfl


/-- A path resolved in the directory `/` reads back as relative names. -/
theorem resolveVirtualPath_root {path virtualPath : Bytes}
    (h : resolveVirtualPath (ascii "/") path false = .ok virtualPath)
    (hne : virtualPath ≠ ascii "/") :
    ∃ names : List Name, names ≠ [] ∧
      virtualPath = 47 :: TextCodec.join 47 (names.map Subtype.val) ∧
      FsPath.parse (virtualPath.drop 1) = ⟨false, names.map .name⟩ := by
  rw [resolveVirtualPath] at h
  split at h
  · cases h
  dsimp only at h
  split at h
  · cases h
  rename_i hempty hrelative
  rw [if_neg (show path ≠ [] from fun hpath => hempty ⟨hpath, rfl⟩), FsPath.append,
    if_neg hrelative] at h
  generalize hcombined : FsPath.lexicallyNormal _ = combined at h
  have habsolute : combined.absolute = false := by
    rw [← hcombined]
    rfl
  obtain ⟨absolute, parts⟩ := combined
  obtain rfl : absolute = false := habsolute
  split at h
  · cases h
  rename_i hup
  obtain rfl := Except.ok.inj h
  obtain ⟨names, rfl⟩ := exists_names (show .up ∉ parts by simpa using hup)
  rw [virtualPathFromRelative] at hne ⊢
  split at hne
  · exact absurd rfl hne
  rename_i hparts
  rw [if_neg hparts]
  refine ⟨names, fun hnil => hparts (by rw [hnil]; rfl), ?_,
    by rw [List.drop_one, List.tail_cons, FsPath.parse_text]⟩
  show 47 :: TextCodec.join 47 ((names.map PathPart.name).map partText) = _
  rw [List.map_map]
  rfl

/-- A target that is accepted is the candidate itself. -/
theorem resolveTarget_fullPath {t t' : FsTree Name} {cwd : List Name}
    {rootPath candidate : FsPath Name} {virtualPath commandName : Bytes}
    {resolved : ResolvedControlPath}
    (h : resolveTarget t cwd rootPath candidate virtualPath commandName = (.ok resolved, t')) :
    resolved.fullPath = candidate.text := by
  rw [resolveTarget] at h
  split at h
  · cases h
  split at h
  · cases h
  split at h
  · cases h
  split at h
  · obtain ⟨hresolved, -⟩ := Prod.mk.inj h
    rw [← Except.ok.inj hresolved]
  · cases h

/-- What the server resolves a STOR argument to is the output named here. -/
theorem resolveControlPath_serverOutput {t t' : FsTree Name} {cwd base : List Name}
    {root dest relative : Bytes} {resolved : ResolvedControlPath}
    (hroot : canonicalRoot t cwd root = .ok (.ofLocation base))
    (hend : (trim (joinRemotePath dest relative)).getLast? ≠ some slash)
    (h : resolveControlPath t cwd root (ascii "/") (trim (joinRemotePath dest relative))
      .storTarget (ascii "STOR") = (.ok resolved, t')) :
    serverOutput base dest relative = some resolved.fullPath := by
  rw [resolveControlPath, show decide (ControlPathKind.storTarget = .existingDirectory) = false
    from rfl] at h
  rw [serverOutput, serverPath, if_neg hend]
  rcases hvirtual : resolveVirtualPath (ascii "/") (trim (joinRemotePath dest relative)) false
    with e | virtualPath
  · rw [hvirtual] at h
    cases h
  rw [hvirtual] at h
  dsimp only at h ⊢
  by_cases hne : virtualPath = ascii "/"
  · rw [if_pos ⟨hne, by decide⟩] at h
    cases h
  obtain ⟨names, hnames, htext, hparse⟩ := resolveVirtualPath_root hvirtual hne
  rw [if_neg (fun hand => hne hand.1), hroot] at h
  dsimp only at h
  rw [if_pos rfl] at h
  have hcandidate : candidatePath (.ofLocation base) virtualPath = .ofLocation (base ++ names) := by
    rw [candidatePath, hparse, FsPath.append, FsPath.ofLocation, FsPath.ofLocation, List.map_append]
    rfl
  rw [if_neg hne]
  show some (rootPrefix base ++ virtualPath) = some resolved.fullPath
  rw [htext, ← text_ofLocation_append base hnames, ← hcandidate, resolveTarget_fullPath h]

/-! ### Suffixes without a separator -/

section Suffix

variable {p q s s' : Bytes}

/-- A separator cannot come from the suffix. -/
theorem below_append_iff (hs : slash ∉ s) : p ++ [slash] <+: q ++ s ↔ p ++ [slash] <+: q := by
  constructor
  · intro h
    rcases List.prefix_or_prefix_of_prefix h (List.prefix_append q s) with hp | ⟨rest, hrest⟩
    · exact hp
    rcases List.eq_nil_or_concat rest with rfl | ⟨init, last, rfl⟩
    · rw [← hrest, List.append_nil]
    · rw [List.concat_eq_append, ← List.append_assoc] at hrest
      obtain ⟨hp, hlast⟩ := List.append_inj' hrest rfl
      obtain rfl := (List.cons.inj hlast).1
      rw [← hp, List.append_assoc, List.prefix_append_right_inj] at h
      exact absurd (h.subset (List.mem_append_right init (List.mem_singleton_self slash))) hs
  · intro h
    exact h.trans (List.prefix_append q s)

theorem atOrBelow_append_left (r : Bytes) : AtOrBelow (r ++ p) (r ++ q) ↔ AtOrBelow p q := by
  rw [AtOrBelow, AtOrBelow, List.append_assoc, List.prefix_append_right_inj,
    List.append_cancel_left_eq]

theorem atOrBelow_append_iff (hs : slash ∉ s) :
    AtOrBelow p (q ++ s) ↔ p = q ++ s ∨ p ++ [slash] <+: q := by
  rw [AtOrBelow, below_append_iff hs]

end Suffix

/-- What the server puts after an output path. -/
def suffixes (transferId : Bytes) : List Bytes :=
  [[], ascii ".gridflux.manifest", ascii ".part." ++ transferId]

theorem keepsClear_iff {p transferId q : Bytes} :
    KeepsClear p transferId q ↔ ∀ s ∈ suffixes transferId, ¬AtOrBelow (p ++ s) q := by
  simp [KeepsClear, suffixes, manifestPathForOutput, tempPathForOutput]

/-! ### The identifiers -/

section TransferId

variable (random : Fin 32 → UInt32)

theorem length_generateTransferId : (generateTransferId random).length = 32 := by
  rw [generateTransferId, List.length_ofFn]

theorem isHexDigit_of_mem_transferId {c : UInt8} (h : c ∈ generateTransferId random) :
    isHexDigit c = true := by
  obtain ⟨i, rfl⟩ := List.mem_ofFn.mp h
  exact isHexDigit_hexDigit (Nat.mod_lt _ (by decide))

theorem slash_notMem_suffixes {s : Bytes} (h : s ∈ suffixes (generateTransferId random)) :
    slash ∉ s := by
  intro hslash
  rw [suffixes, List.mem_cons, List.mem_cons, List.mem_singleton] at h
  rcases h with rfl | rfl | rfl
  · cases hslash
  · exact absurd hslash (by decide)
  · rcases List.mem_append.mp hslash with hpart | hid
    · exact absurd hpart (by decide)
    · exact absurd (isHexDigit_of_mem_transferId random hid) (by decide)

/-- A manifest's name does not end like a part file's. -/
theorem manifest_ne_part (p q : Bytes) :
    manifestPathForOutput p ≠ tempPathForOutput q (generateTransferId random) := by
  intro h
  have hid : generateTransferId random ≠ [] :=
    List.ne_nil_of_length_pos (by rw [length_generateTransferId]; decide)
  obtain ⟨init, last, hlast⟩ := (List.eq_nil_or_concat (generateTransferId random)).resolve_left hid
  rw [List.concat_eq_append] at hlast
  have hmem : last ∈ generateTransferId random := by
    rw [hlast]
    exact List.mem_append_right init (List.mem_singleton_self last)
  have hend : p ++ ascii ".gridflux.manifes" ++ [116] =
      q ++ ascii ".part." ++ init ++ [last] := by
    rw [manifestPathForOutput, tempPathForOutput, hlast] at h
    simpa [ascii] using h
  obtain ⟨-, hlast⟩ := List.append_inj' hend rfl
  have hdigit := isHexDigit_of_mem_transferId random hmem
  rw [← (List.cons.inj hlast).1] at hdigit
  exact absurd hdigit (by decide)

end TransferId

/-- The names of two records meet only if the paths do, or if the one has no
suffix. -/
theorem eq_of_suffixes {r r' : Fin 32 → UInt32} {p q s s' : Bytes}
    (hs : s ∈ suffixes (generateTransferId r)) (hs' : s' ∈ suffixes (generateTransferId r'))
    (h : p ++ s = q ++ s') : p = q ∨ s = [] ∨ s' = [] := by
  rw [suffixes, List.mem_cons, List.mem_cons, List.mem_singleton] at hs hs'
  rcases hs with hs | rfl | rfl
  · exact .inr (.inl hs)
  · rcases hs' with hs' | rfl | rfl
    · exact .inr (.inr hs')
    · exact .inl (List.append_cancel_right h)
    · rw [← List.append_assoc q] at h
      exact absurd h (manifest_ne_part r' p q)
  · rcases hs' with hs' | rfl | rfl
    · exact .inr (.inr hs')
    · rw [← List.append_assoc p] at h
      exact absurd h.symm (manifest_ne_part r q p)
    · have hlength : (ascii ".part." ++ generateTransferId r).length =
          (ascii ".part." ++ generateTransferId r').length := by
        rw [List.length_append, List.length_append, length_generateTransferId,
          length_generateTransferId]
      exact .inl (List.append_inj' h hlength).1

/-- **Two outputs**: the nine pairs of their files are apart if neither output
is at or below a file of the other. -/
theorem suffixes_apart_iff (r r' : Fin 32 → UInt32) (p q : Bytes) :
    (∀ s ∈ suffixes (generateTransferId r), ∀ s' ∈ suffixes (generateTransferId r'),
      ¬Clash (p ++ s) (q ++ s')) ↔
    KeepsClear p (generateTransferId r) q ∧ KeepsClear q (generateTransferId r') p := by
  have hnil : ∀ id, [] ∈ suffixes id := fun _ => List.mem_cons_self
  rw [keepsClear_iff, keepsClear_iff]
  constructor
  · intro h
    constructor
    · intro s hs hbelow
      exact h s hs [] (hnil _) (.inl (by rwa [List.append_nil]))
    · intro s hs hbelow
      exact h [] (hnil _) s hs (.inr (by rwa [List.append_nil]))
  · rintro ⟨hp, hq⟩ s hs s' hs'
    have hne : p ++ s ≠ q ++ s' := by
      intro heq
      rcases eq_of_suffixes hs hs' heq with rfl | rfl | rfl
      · exact hp [] (hnil _) (.inl (List.append_nil p))
      · rw [List.append_nil] at heq
        exact hq s' hs' (.inl heq.symm)
      · rw [List.append_nil] at heq
        exact hp s hs (.inl heq)
    rintro (hbelow | hbelow)
    · rcases (atOrBelow_append_iff (slash_notMem_suffixes r' hs')).mp hbelow with heq | hbelow
      · exact hne heq
      · exact hp s hs (.inr hbelow)
    · rcases (atOrBelow_append_iff (slash_notMem_suffixes r hs)).mp hbelow with heq | hbelow
      · exact hne heq.symm
      · exact hq s' hs' (.inr hbelow)

/-! ### The records -/

section Records

variable (base : List Name) (dest : Bytes)

theorem artifacts_of_serverPath {f : StoredFile} {p : Bytes}
    (h : serverPath dest f.relativePath = some p) :
    f.artifacts base dest =
      (suffixes f.transferId).map fun s => rootPrefix base ++ (p ++ s) := by
  rw [StoredFile.artifacts, serverOutput, h]
  show [rootPrefix base ++ p, rootPrefix base ++ p ++ ascii ".gridflux.manifest",
    rootPrefix base ++ p ++ ascii ".part." ++ f.transferId] = _
  simp [suffixes]

theorem artifactsApart_iff (f g : StoredFile) :
    ArtifactsApart base dest f g ↔ PathsApart dest f g := by
  rcases hf : serverPath dest f.relativePath with - | p
  · simp [ArtifactsApart, PathsApart, StoredFile.artifacts, serverOutput, hf]
  rcases hg : serverPath dest g.relativePath with - | q
  · simp [ArtifactsApart, PathsApart, StoredFile.artifacts, serverOutput, hg]
  have hclash : ∀ s s', Clash (rootPrefix base ++ (p ++ s)) (rootPrefix base ++ (q ++ s')) ↔
      Clash (p ++ s) (q ++ s') := fun s s' => by
    rw [Clash, atOrBelow_append_left, atOrBelow_append_left, Clash]
  rw [ArtifactsApart, PathsApart, artifacts_of_serverPath base dest hf,
    artifacts_of_serverPath base dest hg, hf, hg]
  simp only [List.forall_mem_map, hclash, Option.mem_some_iff, forall_eq']
  exact suffixes_apart_iff f.random g.random p q

end Records

/-- A tree with a file and another one named like its manifest. -/
def manifestNamed : List StoredFile :=
  [⟨ascii "a", fun _ => 0⟩, ⟨ascii "a.gridflux.manifest", fun _ => 0⟩]

end GridFlux
