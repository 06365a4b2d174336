/-
GridFlux/IndependentUploads.lean

Uploads to several output paths, side by side in one file system.

As long as the uploads use different files, none of them notices the others:
each reaches only what it could reach alone, and what it is told at the end is
true of the files that all of them share (`uploads_independent`).  That an
output path is not the beginning of another one is enough for that
(`uploadFiles_disjoint`).
-/
import GridFlux.ReceiverLocality
import GridFlux.SharedStore
import GridFlux.UploadIntegrity

namespace GridFlux

open TextCodec Transition WithWorld

namespace World

variable {S : Set Path} {files : Path → Option Bytes} {w : World}

open Classical in
theorem eqOn_amid : Set.EqOn (w.amid S files).files files Sᶜ :=
  Set.piecewise_eqOn_compl _ _ _

open Classical in
@[simp] theorem amid_self : w.amid S w.files = w := by
  rw [amid, Set.piecewise_same]

theorem amid_amid (others : Path → Option Bytes) :
    (w.amid S files).amid S others = w.amid S others := by
  refine congrArg (fun f => ({ w with files := f } : World)) (funext fun p => ?_)
  show ((w.amid S files).amid S others).files p = (w.amid S others).files p
  by_cases hp : p ∈ S
  · rw [amid_files _ _ hp, amid_files _ _ hp, amid_files _ _ hp]
  · rw [amid_files_of_notMem _ _ hp, amid_files_of_notMem _ _ hp]

theorem amid_of_eqOn (h : Set.EqOn files w.files S) : w.amid S files = { w with files := files } := by
  refine congrArg (fun f => ({ w with files := f } : World)) (funext fun p => ?_)
  by_cases hp : p ∈ S
  · exact (amid_files files w hp).trans (h hp).symm
  · exact amid_files_of_notMem files w hp

end World

namespace FileTransferServer

/-! ### Which uploads use different files -/

/-- What the files of an upload add to its path, up to a number or a transfer
id. -/
def reservedSuffixes : List Bytes := [ascii ".gridflux.manifest", ascii ".part"]

theorem exists_suffix_of_mem_uploadFiles {path p : Path} (h : p ∈ uploadFiles path) :
    ∃ s, p = path ++ s ∧ (s = [] ∨ ∃ k ∈ reservedSuffixes, k <+: s) := by
  rcases h with _ | _ | w | @⟨transferId, hid⟩
  · exact ⟨[], (List.append_nil _).symm, .inl rfl⟩
  · exact ⟨_, rfl, .inr ⟨_, List.mem_cons_self, List.prefix_rfl⟩⟩
  · refine ⟨ascii ".gridflux.manifest" ++ (ascii ".tmp." ++ decimal w.pid), ?_,
      .inr ⟨_, List.mem_cons_self, List.prefix_append _ _⟩⟩
    rw [World.manifestTempPath, manifestPathForOutput, List.append_assoc, List.append_assoc]
  · refine ⟨ascii ".part" ++ (ascii "." ++ transferId), ?_,
      .inr ⟨_, List.mem_cons_of_mem _ List.mem_cons_self, List.prefix_append _ _⟩⟩
    rw [tempPathForOutput, List.append_assoc]
    rfl

/-- No reserved suffix continues with another one before it has ended. -/
theorem not_prefix_of_reserved {k k' a b t : Bytes} (hk : k ∈ reservedSuffixes)
    (hk' : k' ∈ reservedSuffixes) (ha : a ≠ []) (hb : b ≠ []) (h : k = a ++ b) :
    ¬k' <+: b ++ t := by
  have hends : ∀ k ∈ reservedSuffixes, ∀ b ∈ k.tails, b ≠ [] → b ≠ k →
      b ≠ [46] ∧ ∀ k' ∈ reservedSuffixes, ¬k'.take 2 <+: b := by decide +kernel
  have hlong : ∀ k' ∈ reservedSuffixes, ∃ c, k'.take 2 = [46, c] := by
    intro k' hk'
    rw [reservedSuffixes, List.mem_cons, List.mem_singleton] at hk'
    rcases hk' with rfl | rfl
    · exact ⟨_, rfl⟩
    · exact ⟨_, rfl⟩
  obtain ⟨hdot, hnot⟩ := hends k hk b ((List.mem_tails _ _).mpr ⟨a, h.symm⟩) hb fun heq =>
    ha (List.append_left_eq_self.mp (h.symm.trans heq.symm))
  intro hprefix
  obtain ⟨c, hc⟩ := hlong k' hk'
  have htwo : [46, c] <+: b ++ t := hc ▸ (List.take_prefix 2 k').trans hprefix
  rcases List.prefix_or_prefix_of_prefix htwo (List.prefix_append b t) with hin | hin
  · exact hnot k' hk' (hc ▸ hin)
  · -- `b` is a beginning of two bytes
    rcases List.prefix_cons_iff.mp hin with hnil | ⟨b', rfl, hb'⟩
    · exact hb hnil
    · rcases List.prefix_cons_iff.mp hb' with rfl | ⟨b'', rfl, hb''⟩
      · exact hdot rfl
      · rw [List.prefix_nil.mp hb''] at hnot
        exact hnot k' hk' (hc ▸ List.prefix_rfl)

/-- **Two uploads use different files** unless the path of one is that of the
other with a reserved suffix in front of whatever follows. -/
theorem uploadFiles_disjoint {p q : Path} (hne : p ≠ q)
    (hp : ∀ k ∈ reservedSuffixes, ¬p ++ k <+: q) (hq : ∀ k ∈ reservedSuffixes, ¬q ++ k <+: p) :
    Disjoint (uploadFiles p) (uploadFiles q) := by
  have hhalf : ∀ {p rest s s' : Path}, rest ≠ [] → (∀ k ∈ reservedSuffixes, ¬k <+: rest) →
      (s = [] ∨ ∃ k ∈ reservedSuffixes, k <+: s) →
      (s' = [] ∨ ∃ k ∈ reservedSuffixes, k <+: s') → p ++ s ≠ p ++ rest ++ s' := by
    intro p rest s s' hrest hnot hs hs' heq
    rw [List.append_assoc, List.append_cancel_left_eq] at heq
    rcases hs with rfl | ⟨k, hk, t, rfl⟩
    · exact hrest (List.append_eq_nil_iff.mp heq.symm).1
    · rcases List.append_eq_append_iff.mp heq with ⟨a, hrest', -⟩ | ⟨b, hk', hs''⟩
      · exact hnot k hk ⟨a, hrest'.symm⟩
      · have hb : b ≠ [] := by
          rintro rfl
          rw [List.append_nil] at hk'
          exact hnot k hk (hk' ▸ List.prefix_rfl)
        rcases hs' with rfl | ⟨k', hk'', hprefix⟩
        · exact hb (List.append_eq_nil_iff.mp hs''.symm).1
        · rw [hs''] at hprefix
          exact not_prefix_of_reserved hk hk'' hrest hb hk' hprefix
  rw [Set.disjoint_left]
  intro x hx hx'
  obtain ⟨s, rfl, hs⟩ := exists_suffix_of_mem_uploadFiles hx
  obtain ⟨s', heq, hs'⟩ := exists_suffix_of_mem_uploadFiles hx'
  rcases List.prefix_or_prefix_of_prefix (List.prefix_append p s)
    (show q <+: p ++ s from ⟨s', heq.symm⟩) with ⟨rest, rfl⟩ | ⟨rest, rfl⟩
  · refine hhalf (fun hnil => hne ?_) (fun k hk hrest => hp k hk ?_) hs hs' heq
    · rw [hnil, List.append_nil]
    · exact List.prefix_append_right_inj p |>.mpr hrest
  · refine hhalf (fun hnil => hne ?_) (fun k hk hrest => hq k hk ?_) hs' hs heq.symm
    · rw [hnil, List.append_nil]
    · exact List.prefix_append_right_inj q |>.mpr hrest

/-! ### One upload in a store -/

/-- A run that works on the files of the store; the files in its own world are
not looked at. -/
def UploadRun.on (s : UploadRun × (Path → Option Bytes)) : UploadRun :=
  { s.1 with world := { s.1.world with files := s.2 } }

/-- The same run among other files. -/
noncomputable def UploadRun.amid (path : Path) (others : Path → Option Bytes) (run : UploadRun) :
    UploadRun :=
  { run with world := run.world.amid (uploadFiles path) others }

/-- An attempt finds the files of the store; those of its own upload may have
changed. -/
noncomputable def UploadEvent.amid (path : Path) (others : Path → Option Bytes) :
    UploadEvent → UploadEvent
  | .attempt options w => .attempt options (w.amid (uploadFiles path) others)
  | .received event => .received event

/-- An upload to the path, as a component. -/
noncomputable def uploadComponent (path : Path) :
    Component Path (Option Bytes) UploadRun UploadEvent := fun event s s' =>
  (uploadRuns path).step (event.amid path s.2) (UploadRun.on s) (UploadRun.on s')

def uploadInitial (path : Path) (s : UploadRun × (Path → Option Bytes)) : Prop :=
  (uploadRuns path).initial (UploadRun.on s)

/-- The receiver works for the path. -/
def UploadRun.For (path : Path) (run : UploadRun) : Prop :=
  ∀ r, run.receiver = some r → ∃ options, options.path = path ∧ r.Invariant options

/-- Uploads to the given paths, side by side. -/
noncomputable def sharedUploads {ι : Type*} [DecidableEq ι] (paths : ι → Path) :
    System ((ι → UploadRun) × (Path → Option Bytes)) (ι × UploadEvent) :=
  sideBySide (fun i => uploadInitial (paths i)) fun i => uploadComponent (paths i)

section Step

variable {path : Path} {run run' : UploadRun}

/-- A step leaves every other file alone. -/
theorem uploadStep_frame (hfor : run.For path) {event : UploadEvent}
    (h : (uploadRuns path).step (event.amid path run.world.files) run run') :
    Set.EqOn run'.world.files run.world.files (uploadFiles path)ᶜ := by
  cases event with
  | attempt options w =>
      obtain ⟨rfl, -, -, r, w', hstart, rfl⟩ := h
      have hagain := Receiver.start_amid run.world.files
        (w.amid (uploadFiles options.path) run.world.files) options
      rw [World.amid_amid, hstart] at hagain
      have hw' : w' = w'.amid (uploadFiles options.path) run.world.files := (Prod.mk.inj hagain).2
      show Set.EqOn w'.files run.world.files (uploadFiles options.path)ᶜ
      rw [hw']
      exact World.eqOn_amid
  | received event =>
      obtain ⟨r, hr, rfl⟩ := h
      obtain ⟨options, rfl, hinvariant⟩ := hfor r hr
      have hagain := Receiver.step_amid run.world.files run.world options hinvariant event
      rw [World.amid_self] at hagain
      have hw' : (r.step event run.world).2 = _ := congrArg Prod.snd hagain
      show Set.EqOn (r.step event run.world).2.files run.world.files (uploadFiles options.path)ᶜ
      rw [hw']
      exact World.eqOn_amid

/-- The chunks that are found do not depend on the other files. -/
theorem foundChunks_amid {options : FileTransferOptions} {r r' : Receiver}
    (h : r'.Invariant options) (others : Path → Option Bytes) (w : World) :
    UploadRun.foundChunks r r' (w.amid (uploadFiles options.path) others) =
      UploadRun.foundChunks r r' w := by
  ext seg
  constructor
  · rintro ⟨hnone, active, content, hactive, hfile, hrecord⟩
    rw [World.amid_files _ _ (h.sound active hactive).within.temp] at hfile
    exact ⟨hnone, active, content, hactive, hfile, hrecord⟩
  · rintro ⟨hnone, active, content, hactive, hfile, hrecord⟩
    refine ⟨hnone, active, content, hactive, ?_, hrecord⟩
    rw [World.amid_files _ _ (h.sound active hactive).within.temp]
    exact hfile

theorem publishes_amid {options : FileTransferOptions} {r : Receiver} (h : r.Invariant options)
    (event : Event) (others : Path → Option Bytes) (w : World) :
    r.publishes event (w.amid (uploadFiles options.path) others) = r.publishes event w := by
  have hpath : r.options.path ∈ uploadFiles options.path := by
    rw [h.sameOptions]
    exact .output
  rw [Receiver.publishes.eq_def, Receiver.publishes.eq_def]
  cases r.phase with
  | verified =>
      cases event with
      | proceed =>
          cases hactive : r.transfer.active with
          | none => rfl
          | some active =>
              dsimp only
              rw [publish_amid _ _ _ _ (h.sound active hactive).within hpath]
              rfl
      | accepted => rfl
      | header index encoded => rfl
      | payload index bytes => rfl
      | lost status => rfl
  | receiving => rfl
  | committed => rfl
  | returned status => rfl

/-- An event does the same to the run among other files. -/
theorem receive_amid {options : FileTransferOptions} {r : Receiver} (h : r.Invariant options)
    (event : Event) (others : Path → Option Bytes) :
    (run.amid options.path others).receive r event =
      (run.receive r event).amid options.path others := by
  have hstep := Receiver.step_amid others run.world options h event
  have hreceiver : (r.step event (run.world.amid (uploadFiles options.path) others)).1 =
      (r.step event run.world).1 := by
    rw [hstep]
    rfl
  have hworld : (r.step event (run.world.amid (uploadFiles options.path) others)).2 =
      (r.step event run.world).2.amid (uploadFiles options.path) others := by
    rw [hstep]
    rfl
  show UploadRun.mk _ _ _ _ _ = UploadRun.mk _ _ _ _ _
  rw [UploadRun.mk.injEq]
  refine ⟨congrArg some hreceiver, hworld, rfl, ?_, ?_⟩
  · show _ ∪ _ ∪ UploadRun.foundChunks r
      (r.step event (run.world.amid (uploadFiles options.path) others)).1
      (r.step event (run.world.amid (uploadFiles options.path) others)).2 = _
    rw [hreceiver, hworld, foundChunks_amid (h.step event run.world)]
    rfl
  · show (run.committed || r.publishes event _) = _
    rw [show (run.amid options.path others).world =
      run.world.amid (uploadFiles options.path) others from rfl, publishes_amid h]
    rfl

/-- **A step can be made among any other files**, and has the same outcome. -/
theorem uploadStep_amid (hfor : run.For path) {event : UploadEvent}
    (h : (uploadRuns path).step (event.amid path run.world.files) run run')
    (others : Path → Option Bytes) :
    (uploadRuns path).step (event.amid path others) (run.amid path others)
      (run'.amid path others) := by
  cases event with
  | attempt options w =>
      obtain ⟨rfl, hcrc, hmanifest, r, w', hstart, rfl⟩ := h
      have hmem : manifestPathForOutput options.path ∈ uploadFiles options.path := .manifest
      have hagain := Receiver.start_amid others
        (w.amid (uploadFiles options.path) run.world.files) options
      rw [World.amid_amid, hstart] at hagain
      refine ⟨rfl, hcrc, ?_, r, _, hagain, rfl⟩
      rw [World.amid_files _ _ hmem] at hmanifest ⊢
      show _ = (run.world.amid _ others).files _ ∨ _
      rwa [World.amid_files _ _ hmem]
  | received event =>
      obtain ⟨r, hr, rfl⟩ := h
      obtain ⟨options, rfl, hinvariant⟩ := hfor r hr
      exact ⟨r, hr, (receive_amid hinvariant event others).symm⟩

theorem uploadStep_for (hfor : run.For path) {event : UploadEvent}
    (h : (uploadRuns path).step event run run') : run'.For path := by
  intro r' hr'
  cases event with
  | attempt options w =>
      obtain ⟨hpath, -, -, r, w', hstart, rfl⟩ := h
      obtain rfl := Option.some.inj hr'
      exact ⟨options, hpath, .start hstart⟩
  | received event =>
      obtain ⟨r, hr, rfl⟩ := h
      obtain ⟨options, hpath, hinvariant⟩ := hfor r hr
      obtain rfl := Option.some.inj hr'
      exact ⟨options, hpath, hinvariant.step event run.world⟩

/-- An upload keeps to its files. -/
theorem uploadComponent_confined (path : Path) :
    (uploadComponent path).Confined (uploadFiles path) (UploadRun.For path) where
  keeps {_ c f c' f'} hfor h :=
    @uploadStep_for path (UploadRun.on (c, f)) (UploadRun.on (c', f')) hfor _ h
  frame {_ c f c' f'} hfor h :=
    @uploadStep_frame path (UploadRun.on (c, f)) (UploadRun.on (c', f')) hfor _ h
  moves {event c f c' f' g} hfor h hsame := by
    have hmoved := @uploadStep_amid path (UploadRun.on (c, f)) (UploadRun.on (c', f')) hfor _ h g
    have hbefore : (UploadRun.on (c, f)).amid path g = UploadRun.on (c, g) := by
      show ({ c with world := World.amid _ g _ } : UploadRun) = _
      rw [World.amid_of_eqOn hsame]
      rfl
    rw [hbefore] at hmoved
    refine ⟨(World.amid (uploadFiles path) g (UploadRun.on (c', f')).world).files, hmoved,
      fun p hp => ?_⟩
    exact World.amid_files g _ hp

/-- What an upload does alone in a store, it does in a world of its own. -/
theorem reachable_on {s : UploadRun × (Path → Option Bytes)}
    (h : (alone (uploadInitial path) (uploadComponent path)).Reachable s) :
    (uploadRuns path).Reachable (UploadRun.on s) := by
  induction h with
  | initial h => exact .initial h
  | step _ hstep ih => exact ih.step hstep

end Step

/-! ### Uploads side by side -/

theorem Published.congr {output : Path} {content : Bytes} {active : ActiveTransfer}
    {options : FileTransferOptions} (hsound : active.Sound options) (hpath : options.path = output)
    {w w' : World} (h : Published parseTransferManifest output content active.session w)
    (hsame : Set.EqOn w.files w'.files (uploadFiles output)) :
    Published parseTransferManifest output content active.session w' := by
  subst hpath
  exact ⟨(hsame .output).symm.trans h.output, h.manifest.congr (hsame hsound.within.manifest).symm⟩

/-- **Uploads to different files do not interfere.**  Whatever happens side by
side, each upload is in a state that it can reach alone, with the same files of
its own; and once it has sent a COMPLETE frame, its output is in the store all
the uploads share, whole and with a committed manifest. -/
theorem uploads_independent {ι : Type*} [DecidableEq ι] (paths : ι → Path)
    (hapart : ∀ i j, i ≠ j → Disjoint (uploadFiles (paths i)) (uploadFiles (paths j)))
    {s : (ι → UploadRun) × (Path → Option Bytes)} (h : (sharedUploads paths).Reachable s) (i : ι) :
    (∃ files, (uploadRuns (paths i)).Reachable (UploadRun.on (s.1 i, files)) ∧
      Set.EqOn files s.2 (uploadFiles (paths i))) ∧
    (NoCollision (s.1 i).contents → ∀ r, (s.1 i).receiver = some r →
      (∃ f ∈ r.transfer.sent, f.header.type = .complete) →
        ∃ active content, r.transfer.active = some active ∧
          Published parseTransferManifest (paths i) content active.session
            (UploadRun.on (s.1 i, s.2)).world ∧
          ∀ record ∈ active.session.records, record.Intact content) := by
  have hinitial : ∀ i s, uploadInitial (paths i) s → UploadRun.For (paths i) s.1 := by
    rintro i s ⟨hnone, -⟩ r hr
    rw [show s.1.receiver = none from hnone] at hr
    cases hr
  obtain ⟨files, halone, hsame⟩ := exists_alone hinitial
    (fun i => uploadComponent_confined (paths i)) hapart h i
  have hreach := reachable_on halone
  refine ⟨⟨files, hreach, hsame⟩, fun hcollision r hr htold => ?_⟩
  have hok := (UploadRun.ok_of_reachable hreach).receiver r hr
  obtain ⟨active, content, hc⟩ := hok.told htold
  have hpublished := hc.published
  rw [hok.path] at hpublished
  exact ⟨active, content, hc.active',
    Published.congr (hok.invariant.sound active hc.active') hok.path hpublished hsame,
    hc.intact hcollision⟩

/-- The events of a receiver that is running. -/
theorem sharedUploads_receive {ι : Type*} [DecidableEq ι] {paths : ι → Path}
    {s : (ι → UploadRun) × (Path → Option Bytes)} (h : (sharedUploads paths).Reachable s) {i : ι}
    {r : Receiver} (hr : (s.1 i).receiver = some r) (event : Event) :
    (sharedUploads paths).Reachable
      (Function.update s.1 i ((UploadRun.on (s.1 i, s.2)).receive r event),
        ((UploadRun.on (s.1 i, s.2)).receive r event).world.files) :=
  let after := (UploadRun.on (s.1 i, s.2)).receive r event
  have hstep : uploadComponent (paths i) (.received event) (s.1 i, s.2)
      (after, after.world.files) := ⟨r, hr, rfl⟩
  h.step (l := (i, .received event)) ⟨after, hstep, rfl⟩

/-- A receiver that starts on the files there are. -/
theorem sharedUploads_attempt {ι : Type*} [DecidableEq ι] {paths : ι → Path}
    {s : (ι → UploadRun) × (Path → Option Bytes)} (h : (sharedUploads paths).Reachable s) (i : ι)
    (options : FileTransferOptions) {w w' : World} {r : Receiver} (hpath : options.path = paths i)
    (hcrc : options.checksumAlgorithm = .crc32c) (hw : w.files = s.2)
    (hstart : Receiver.start options w = (.ok r, w')) :
    (sharedUploads paths).Reachable
      (Function.update s.1 i ⟨some r, w', fun _ => [], ∅, false⟩, w'.files) := by
  have hsame : w.amid (uploadFiles (paths i)) s.2 = w := by
    rw [← hw, World.amid_self]
  have hstep : uploadComponent (paths i) (.attempt options w) (s.1 i, s.2)
      (⟨some r, w', fun _ => [], ∅, false⟩, w'.files) := by
    show (uploadRuns (paths i)).step (.attempt options (w.amid _ s.2)) _ _
    rw [hsame]
    exact ⟨hpath, hcrc, .inl (congrFun hw _), r, w', hstart, rfl⟩
  exact h.step (l := (i, .attempt options w)) ⟨_, hstep, rfl⟩

/-! ### Two uploads -/

def twoPaths (i : Bool) : Path := if i then ascii "a" else ascii "a.txt"

theorem twoPaths_apart (i j : Bool) (h : i ≠ j) :
    Disjoint (uploadFiles (twoPaths i)) (uploadFiles (twoPaths j)) := by
  have hapart : Disjoint (uploadFiles (ascii "a")) (uploadFiles (ascii "a.txt")) :=
    uploadFiles_disjoint (by decide) (by decide +kernel) (by decide +kernel)
  cases i with
  | true =>
      cases j with
      | true => exact absurd rfl h
      | false => exact hapart
  | false =>
      cases j with
      | true => exact hapart.symm
      | false => exact absurd rfl h

/-- Both receivers have started, one after the other, and have accepted a
connection. -/
theorem uploads_independent_two : ∃ s, (sharedUploads twoPaths).Reachable s ∧
    (∀ i, ∃ r, (s.1 i).receiver = some r ∧ r.connections.length = 1) ∧
    ∀ i, ∃ files, (uploadRuns (twoPaths i)).Reachable (UploadRun.on (s.1 i, files)) ∧
      Set.EqOn files s.2 (uploadFiles (twoPaths i)) := by
  have hbegin : (sharedUploads twoPaths).Reachable
      (fun _ => ⟨none, .withFiles fun _ => none, fun _ => [], ∅, false⟩, fun _ => none) :=
    .initial fun i => ⟨rfl, rfl⟩
  have hfirst := sharedUploads_attempt (w := .withFiles fun _ => none) hbegin true
    { oneByteOptions with path := ascii "a" } rfl rfl rfl rfl
  have hsecond := sharedUploads_attempt (w := .withFiles fun _ => none) hfirst false
    { oneByteOptions with path := ascii "a.txt" } rfl rfl rfl rfl
  have hthird := sharedUploads_receive (i := true) hsecond rfl .accepted
  have hfourth := sharedUploads_receive (i := false) hthird rfl .accepted
  refine ⟨_, hfourth, fun i => ?_, fun i =>
    (uploads_independent twoPaths twoPaths_apart hfourth i).1⟩
  cases i with
  | true => exact ⟨_, rfl, rfl⟩
  | false => exact ⟨_, rfl, rfl⟩

end FileTransferServer

end GridFlux
