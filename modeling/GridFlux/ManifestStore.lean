/-
GridFlux/ManifestStore.lean

Writing and reading a manifest file: `ManifestStore::saveAtomicPrepared`,
`savePreparedDownloadManifestAtomic` and the two `load` functions.  The
functions differ in their error texts only.

A save goes through a temporary file and a rename, so a failing save leaves
the manifest as it was (`saveAtomic_error`) and a successful one replaces it
(`saveAtomic_ok`).
-/
import GridFlux.World
import GridFlux.TransferManifest
import GridFlux.DownloadManifest

namespace GridFlux

open TextCodec

/-- The error texts of one save function. -/
structure SaveTexts where
  openTemp : Bytes
  writeTemp : Bytes
  closeTemp : Bytes

def transferSaveTexts : SaveTexts :=
  ⟨ascii "open manifest temp", ascii "write manifest", ascii "close manifest temp"⟩

def downloadSaveTexts : SaveTexts :=
  ⟨ascii "open download manifest temp", ascii "write download manifest",
    ascii "close download manifest temp"⟩

namespace World

/-- `open(path, O_WRONLY | O_CREAT | O_TRUNC)`. -/
def openTruncate (w : World) (operation : Bytes) (path : Path) : Effect Unit :=
  match w.nextOutcome with
  | .failure e _ => (.error (.systemError operation e), w.afterCall)
  | .success =>
      if w.isDirectory path then
        (.error (.systemError operation kErrIsDirectory), w.afterCall)
      else (.ok (), w.afterCall.setFile path (some []))

/-- `writeAll` into a file opened empty: a failing call may have written a
prefix. -/
def writeAll (w : World) (operation : Bytes) (path : Path) (text : Bytes) : Effect Unit :=
  match w.nextOutcome with
  | .failure e moved =>
      (.error (.systemError operation e), w.afterCall.setFile path (some (text.take moved)))
  | .success => (.ok (), w.afterCall.setFile path (some text))

/-- `close`. -/
def close (w : World) (operation : Bytes) : Effect Unit :=
  match w.nextOutcome with
  | .failure e _ => (.error (.systemError operation e), w.afterCall)
  | .success => (.ok (), w.afterCall)

/-- The temporary file of a manifest. -/
def manifestTempPath (w : World) (path : Path) : Path :=
  path ++ ascii ".tmp." ++ decimal w.pid

/-- The write half of a save: open, write and close the temporary file, which
is removed again after a failed write or close. -/
def writeTemp (w : World) (texts : SaveTexts) (tempPath : Path) (text : Bytes) : Effect Unit :=
  match w.openTruncate texts.openTemp tempPath with
  | (.error e, w) => (.error e, w)
  | (.ok _, w) =>
      match w.writeAll texts.writeTemp tempPath text with
      | (.error e, w) => (.error e, (w.removePath tempPath).2)
      | (.ok _, w) =>
          match w.close texts.closeTemp with
          | (.error e, w) => (.error e, (w.removePath tempPath).2)
          | (.ok _, w) => (.ok (), w)

/-- The part of a save that follows the serialization. -/
def saveAtomic (w : World) (texts : SaveTexts) (path : Path) (text : Bytes) : Effect Unit :=
  match w.writeTemp texts (w.manifestTempPath path) text with
  | (.error e, w') => (.error e, w')
  | (.ok _, w') =>
      match w'.renamePath (w.manifestTempPath path) path with
      | (.error e, w'') => (.error e, (w''.removePath (w.manifestTempPath path)).2)
      | (.ok _, w'') => (.ok (), w'')

/-- The `ifstream` part of a load. -/
def readText (w : World) (openFailed readFailed : Bytes) (path : Path) : Effect Bytes :=
  match w.nextOutcome with
  | .failure _ _ => (.error (.runtimeError (openFailed ++ path)), w.afterCall)
  | .success =>
      match w.files path with
      | none => (.error (.runtimeError (openFailed ++ path)), w.afterCall)
      | some text =>
          match w.afterCall.nextOutcome with
          | .failure _ _ => (.error (.runtimeError (readFailed ++ path)), w.afterCall.afterCall)
          | .success => (.ok text, w.afterCall.afterCall)

theorem readText_ok {w w' : World} {openFailed readFailed : Bytes} {path : Path} {text : Bytes}
    (h : w.readText openFailed readFailed path = (.ok text, w')) :
    w.files path = some text := by
  rw [readText] at h
  cases hopen : w.nextOutcome with
  | failure e moved => simp [hopen] at h
  | success =>
      cases hfile : w.files path with
      | none => simp [hopen, hfile] at h
      | some content =>
          cases hread : w.afterCall.nextOutcome with
          | failure e moved => simp [hopen, hfile, hread] at h
          | success =>
              simp only [hopen, hfile, hread, Prod.mk.injEq, Except.ok.injEq] at h
              rw [h.1]

theorem Quiet.readText {w : World} (hquiet : w.Quiet) (openFailed readFailed : Bytes)
    {path : Path} {text : Bytes} (h : w.files path = some text) :
    w.readText openFailed readFailed path = (.ok text, w.afterCall.afterCall) := by
  rw [World.readText]
  simp only [hquiet.nextOutcome, hquiet.afterCall.nextOutcome, h]

/-! ### A save leaves every other file alone -/

theorem manifestTempPath_ne (w : World) (path : Path) : w.manifestTempPath path ≠ path := by
  intro h
  have hlen := congrArg List.length h
  simp only [manifestTempPath, List.length_append] at hlen
  have hdot : (ascii ".tmp.").length = 5 := by decide
  omega

theorem openTruncate_frame (w : World) (operation : Bytes) (path : Path) :
    Frame {path} w (w.openTruncate operation path).2 := by
  rw [openTruncate]
  cases w.nextOutcome with
  | failure e moved => exact Frame.afterCall _ w
  | success =>
      show Frame _ w (if _ then _ else _ : Effect Unit).2
      split
      · exact Frame.afterCall _ w
      · exact (Frame.afterCall _ w).setFile (Set.mem_singleton _) _

theorem writeAll_frame (w : World) (operation : Bytes) (path : Path) (text : Bytes) :
    Frame {path} w (w.writeAll operation path text).2 := by
  rw [writeAll]
  cases w.nextOutcome with
  | failure e moved => exact (Frame.afterCall _ w).setFile (Set.mem_singleton _) _
  | success => exact (Frame.afterCall _ w).setFile (Set.mem_singleton _) _

theorem close_frame (w : World) (operation : Bytes) : Frame ∅ w (w.close operation).2 := by
  rw [close]
  cases w.nextOutcome with
  | failure e moved => exact Frame.afterCall _ w
  | success => exact Frame.afterCall _ w

theorem readText_frame (w : World) (openFailed readFailed : Bytes) (path : Path) :
    Frame ∅ w (w.readText openFailed readFailed path).2 := by
  rw [readText]
  cases w.nextOutcome with
  | failure e moved => exact Frame.afterCall _ w
  | success =>
      cases w.files path with
      | none => exact Frame.afterCall _ w
      | some text =>
          have htwo := (Frame.afterCall ∅ w).trans (Frame.afterCall ∅ w.afterCall)
          show Frame _ w (match w.afterCall.nextOutcome with
            | .failure _ _ => _
            | .success => _ : Effect Bytes).2
          cases w.afterCall.nextOutcome with
          | failure e moved => exact htwo
          | success => exact htwo

theorem writeTemp_frame (w : World) (texts : SaveTexts) (tempPath : Path) (text : Bytes) :
    Frame {tempPath} w (w.writeTemp texts tempPath text).2 := by
  have hopen := openTruncate_frame w texts.openTemp tempPath
  rw [writeTemp]
  rcases h₁ : w.openTruncate texts.openTemp tempPath with ⟨e | _, w₁⟩
  · rw [h₁] at hopen
    exact hopen
  · rw [h₁] at hopen
    have hwrite := hopen.trans (writeAll_frame w₁ texts.writeTemp tempPath text)
    show Frame _ w (match w₁.writeAll texts.writeTemp tempPath text with
      | (.error e, w) => _
      | (.ok _, w) => _ : Effect Unit).2
    rcases h₂ : w₁.writeAll texts.writeTemp tempPath text with ⟨e | _, w₂⟩
    · rw [h₂] at hwrite
      exact hwrite.trans (removePath_frame w₂ tempPath)
    · rw [h₂] at hwrite
      have hclose := hwrite.trans ((close_frame w₂ texts.closeTemp).mono (Set.empty_subset _))
      show Frame _ w (match w₂.close texts.closeTemp with
        | (.error e, w) => _
        | (.ok _, w) => _ : Effect Unit).2
      rcases h₃ : w₂.close texts.closeTemp with ⟨e | _, w₃⟩
      · rw [h₃] at hclose
        exact hclose.trans (removePath_frame w₃ tempPath)
      · rw [h₃] at hclose
        exact hclose

/-- A successful write half has put the text into the temporary file. -/
theorem writeTemp_ok {w w' : World} {texts : SaveTexts} {tempPath : Path} {text : Bytes}
    {u : Unit} (h : w.writeTemp texts tempPath text = (.ok u, w')) :
    w'.files tempPath = some text := by
  rw [writeTemp] at h
  rcases h₁ : w.openTruncate texts.openTemp tempPath with ⟨e | _, w₁⟩
  · simp [h₁] at h
  · simp only [h₁] at h
    rcases h₂ : w₁.writeAll texts.writeTemp tempPath text with ⟨e | _, w₂⟩
    · simp [h₂] at h
    · simp only [h₂] at h
      rcases h₃ : w₂.close texts.closeTemp with ⟨e | _, w₃⟩
      · simp [h₃] at h
      · simp only [h₃, Prod.mk.injEq] at h
        obtain rfl := h.2
        have hclose := close_frame w₂ texts.closeTemp
        rw [h₃] at hclose
        rw [hclose.files _ (by simp)]
        rw [writeAll] at h₂
        cases hout : w₁.nextOutcome with
        | failure e moved => simp [hout] at h₂
        | success =>
            simp only [hout, Prod.mk.injEq] at h₂
            rw [← h₂.2, setFile_files_self]

theorem saveAtomic_frame (w : World) (texts : SaveTexts) (path : Path) (text : Bytes) :
    Frame {path, w.manifestTempPath path} w (w.saveAtomic texts path text).2 := by
  have hwrite := (writeTemp_frame w texts (w.manifestTempPath path) text).mono
    (Set.subset_insert path _)
  rw [saveAtomic]
  rcases h₁ : w.writeTemp texts (w.manifestTempPath path) text with ⟨e | _, w₁⟩
  · rw [h₁] at hwrite
    exact hwrite
  · rw [h₁] at hwrite
    have hrename := hwrite.trans ((renamePath_frame w₁ (w.manifestTempPath path) path).mono
      (Set.pair_comm _ _).subset)
    show Frame _ w (match w₁.renamePath (w.manifestTempPath path) path with
      | (.error e, w'') => _
      | (.ok _, w'') => _ : Effect Unit).2
    rcases h₂ : w₁.renamePath (w.manifestTempPath path) path with ⟨e | _, w₂⟩
    · rw [h₂] at hrename
      exact hrename.trans ((removePath_frame w₂ _).mono (by simp))
    · rw [h₂] at hrename
      exact hrename

/-- **A successful save** has replaced the manifest by the text. -/
theorem saveAtomic_ok {w w' : World} {texts : SaveTexts} {path : Path} {text : Bytes} {u : Unit}
    (h : w.saveAtomic texts path text = (.ok u, w')) : w'.files path = some text := by
  rw [saveAtomic] at h
  rcases h₁ : w.writeTemp texts (w.manifestTempPath path) text with ⟨e | _, w₁⟩
  · simp [h₁] at h
  · simp only [h₁] at h
    rcases h₂ : w₁.renamePath (w.manifestTempPath path) path with ⟨e | _, w₂⟩
    · simp [h₂] at h
    · simp only [h₂, Prod.mk.injEq] at h
      obtain rfl := h.2
      obtain ⟨content, hsource, htarget, -⟩ := renamePath_ok h₂ (manifestTempPath_ne w path)
      rw [writeTemp_ok h₁] at hsource
      obtain rfl := Option.some.inj hsource
      exact htarget

/-- **A failing save** has left the manifest as it was. -/
theorem saveAtomic_error {w w' : World} {texts : SaveTexts} {path : Path} {text : Bytes}
    {e : Status} (h : w.saveAtomic texts path text = (.error e, w')) :
    w'.files path = w.files path := by
  have hne : path ∉ ({w.manifestTempPath path} : Set Path) := fun hmem =>
    manifestTempPath_ne w path (Set.mem_singleton_iff.mp hmem).symm
  have hwrite := writeTemp_frame w texts (w.manifestTempPath path) text
  rw [saveAtomic] at h
  rcases h₁ : w.writeTemp texts (w.manifestTempPath path) text with ⟨e₁ | _, w₁⟩
  · simp only [h₁, Prod.mk.injEq] at h
    rw [← h.2]
    rw [h₁] at hwrite
    exact hwrite.files path hne
  · simp only [h₁] at h
    rw [h₁] at hwrite
    rcases h₂ : w₁.renamePath (w.manifestTempPath path) path with ⟨e₂ | _, w₂⟩
    · simp only [h₂, Prod.mk.injEq] at h
      rw [← h.2, (removePath_frame w₂ _).files path hne, renamePath_error h₂,
        hwrite.files path hne]
    · simp [h₂] at h

/-- **When a save succeeds**: none of its four calls fails, and neither of its
names is a directory. -/
theorem saveAtomic_ok_iff {w : World} {texts : SaveTexts} {path : Path} {text : Bytes} :
    (w.saveAtomic texts path text).1 = .ok () ↔ w.CallsSucceed 4 ∧
      w.isDirectory (w.manifestTempPath path) = false ∧ w.isDirectory path = false := by
  have hne := w.manifestTempPath_ne path
  rw [callsSucceed_succ, callsSucceed_succ, callsSucceed_succ, callsSucceed_succ]
  cases h1 : w.nextOutcome with
  | failure e moved => simp [saveAtomic, writeTemp, openTruncate, h1]
  | success =>
      cases hd : w.isDirectory (w.manifestTempPath path) with
      | true => simp [saveAtomic, writeTemp, openTruncate, h1, hd]
      | false =>
          cases h2 : w.afterCall.nextOutcome with
          | failure e moved => simp [saveAtomic, writeTemp, openTruncate, writeAll, h1, hd, h2]
          | success =>
              cases h3 : w.afterCall.afterCall.nextOutcome with
              | failure e moved =>
                  simp [saveAtomic, writeTemp, openTruncate, writeAll, close, h1, hd, h2, h3]
              | success =>
                  cases h4 : w.afterCall.afterCall.afterCall.nextOutcome with
                  | failure e moved =>
                      simp [saveAtomic, writeTemp, openTruncate, writeAll, close, renamePath, h1,
                        hd, h2, h3, h4]
                  | success =>
                      cases hp : w.isDirectory path with
                      | true =>
                          simp [saveAtomic, writeTemp, openTruncate, writeAll, close, renamePath,
                            h1, hd, h2, h3, h4, hp]
                      | false =>
                          simp [saveAtomic, writeTemp, openTruncate, writeAll, close, renamePath,
                            h1, hd, h2, h3, h4, hp, hne]

end World

/-! ### Loading -/

/-- `ManifestStore::load`. -/
def loadTransferManifest (w : World) (path : Path) : Effect TransferManifest :=
  match w.readText (ascii "open manifest failed: ") (ascii "read manifest failed: ") path with
  | (.error e, w) => (.error e, w)
  | (.ok text, w) => (parseTransferManifest text, w)

/-- `loadDownloadManifest`. -/
def loadDownloadManifest (w : World) (path : Path) : Effect DownloadManifest :=
  match w.readText (ascii "open download manifest failed: ")
      (ascii "read download manifest failed: ") path with
  | (.error e, w) => (.error e, w)
  | (.ok text, w) => (parseDownloadManifest text, w)

theorem loadTransferManifest_ok {w w' : World} {path : Path} {manifest : TransferManifest}
    (h : loadTransferManifest w path = (.ok manifest, w')) :
    ∃ text, w.files path = some text ∧ parseTransferManifest text = .ok manifest := by
  rw [loadTransferManifest] at h
  rcases hread : w.readText (ascii "open manifest failed: ") (ascii "read manifest failed: ")
    path with ⟨e | text, w₁⟩
  · simp [hread] at h
  · simp only [hread, Prod.mk.injEq] at h
    exact ⟨text, World.readText_ok hread, h.1⟩

theorem loadDownloadManifest_ok {w w' : World} {path : Path} {manifest : DownloadManifest}
    (h : loadDownloadManifest w path = (.ok manifest, w')) :
    ∃ text, w.files path = some text ∧ parseDownloadManifest text = .ok manifest := by
  rw [loadDownloadManifest] at h
  rcases hread : w.readText (ascii "open download manifest failed: ")
    (ascii "read download manifest failed: ") path with ⟨e | text, w₁⟩
  · simp [hread] at h
  · simp only [hread, Prod.mk.injEq] at h
    exact ⟨text, World.readText_ok hread, h.1⟩

theorem loadTransferManifest_frame (w : World) (path : Path) :
    World.Frame ∅ w (loadTransferManifest w path).2 := by
  have hread := w.readText_frame (ascii "open manifest failed: ")
    (ascii "read manifest failed: ") path
  rw [loadTransferManifest]
  rcases h : w.readText (ascii "open manifest failed: ") (ascii "read manifest failed: ")
    path with ⟨e | text, w₁⟩
  · rw [h] at hread
    exact hread
  · rw [h] at hread
    exact hread

theorem loadDownloadManifest_frame (w : World) (path : Path) :
    World.Frame ∅ w (loadDownloadManifest w path).2 := by
  have hread := w.readText_frame (ascii "open download manifest failed: ")
    (ascii "read download manifest failed: ") path
  rw [loadDownloadManifest]
  rcases h : w.readText (ascii "open download manifest failed: ")
    (ascii "read download manifest failed: ") path with ⟨e | text, w₁⟩
  · rw [h] at hread
    exact hread
  · rw [h] at hread
    exact hread

theorem loadTransferManifest_of_quiet {w : World} (hquiet : w.Quiet) {path : Path}
    {text : Bytes} (h : w.files path = some text) :
    loadTransferManifest w path = (parseTransferManifest text, w.afterCall.afterCall) := by
  simp only [loadTransferManifest, hquiet.readText _ _ h]

theorem loadDownloadManifest_of_quiet {w : World} (hquiet : w.Quiet) {path : Path}
    {text : Bytes} (h : w.files path = some text) :
    loadDownloadManifest w path = (parseDownloadManifest text, w.afterCall.afterCall) := by
  simp only [loadDownloadManifest, hquiet.readText _ _ h]

end GridFlux
