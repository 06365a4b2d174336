/-
GridFlux/VirtualPaths.lean

`resolveVirtualPath` against a stack of names, and the working directory of a
control session.

The reference reads the argument part by part: a name is pushed, `..` pops,
`.` and empty parts do nothing.  A normal form begins with `..` from the moment
on at which the stack would have been popped empty (`foldl_normalStep`), so the
check of the source finds every such moment, however the parts are mixed.
-/
import GridFlux.PassiveAgreement

namespace GridFlux

open FileTree TextCodec Transition

/-! ### The reference -/

/-- One part of a path on a stack of names; `none` once an empty stack has been
popped. -/
def stackStep (stack : Option (List Bytes)) (part : Bytes) : Option (List Bytes) :=
  if part = [] ∨ part = ascii "." then stack
  else if part = ascii ".." then stack.bind fun names => if names = [] then none else some names.dropLast
  else stack.map (· ++ [part])

/-- The stack after the whole argument. -/
def stackRun (names : List Bytes) (path : Bytes) : Option (List Bytes) :=
  (pieces slash path).foldl stackStep (some names)

/-- `/` and the names. -/
def directoryText (names : List Bytes) : Bytes := slash :: join slash names

/-- An absolute path without `.`, `..` and empty parts. -/
def NormalDirectory (directory : Bytes) : Prop :=
  ∃ names : List Bytes,
    (∀ n ∈ names, n ≠ [] ∧ slash ∉ n ∧ n ≠ ascii "." ∧ n ≠ ascii "..") ∧
      directory = directoryText names

theorem normalDirectory_root : NormalDirectory (ascii "/") := by
  refine ⟨[], ?_, rfl⟩
  intro n hn
  cases hn

/-! ### The normal form follows the stack -/

theorem stackStep_none (part : Bytes) : stackStep none part = none := by
  rw [stackStep]
  split
  · rfl
  · split
    · rfl
    · rfl

theorem foldl_stackStep_none (parts : List Bytes) : parts.foldl stackStep none = none := by
  induction parts with
  | nil => rfl
  | cons part parts ih =>
      rw [List.foldl_cons, stackStep_none]
      exact ih

/-- A `..` at the front of a relative normal form stays there. -/
theorem up_mem_normalStep {done : List (PathPart Name)} (h : .up ∈ done) (part : PathPart Name) :
    .up ∈ FsPath.normalStep false done part := by
  cases part with
  | name n => exact List.mem_append_left _ h
  | up =>
      obtain ⟨init, last, rfl⟩ := (List.eq_nil_or_concat' done).resolve_left (List.ne_nil_of_mem h)
      simp only [FsPath.normalStep, List.getLast?_concat]
      cases last with
      | up => exact List.mem_append_right _ (List.mem_singleton_self _)
      | name n =>
          rw [List.dropLast_concat]
          rcases List.mem_append.mp h with h | h
          · exact h
          · cases List.mem_singleton.mp h

theorem up_mem_foldl {done : List (PathPart Name)} (h : .up ∈ done)
    (parts : List (PathPart Name)) : .up ∈ parts.foldl (FsPath.normalStep false) done := by
  induction parts generalizing done with
  | nil => exact h
  | cons part parts ih => exact ih (up_mem_normalStep h part)

/-- What `partOf` makes of a part that holds no separator. -/
theorem partOf_name {part : Bytes} (hslash : slash ∉ part) (hne : ¬(part = [] ∨ part = ascii "."))
    (hup : part ≠ ascii "..") : ∃ n : Name, n.val = part ∧ partOf part = some (.name n) := by
  rw [not_or] at hne
  refine ⟨⟨part, hne.1, hslash, hne.2, hup⟩, rfl, ?_⟩
  have hnotUp : ¬part = [46, 46] := hup
  have hplain : part ≠ [] ∧ 47 ∉ part ∧ part ≠ [46] := ⟨hne.1, hslash, hne.2⟩
  rw [partOf, dif_neg hnotUp, dif_pos hplain]

/-- **The normal form and the stack**: both hold the same names, or the stack has
failed and the normal form begins with `..`. -/
theorem foldl_normalStep (names : List Name) {parts : List Bytes} (h : ∀ part ∈ parts, slash ∉ part) :
    (∃ names' : List Name,
      parts.foldl stackStep (some (names.map Subtype.val)) = some (names'.map Subtype.val) ∧
        (parts.filterMap partOf).foldl (FsPath.normalStep false) (names.map .name) =
          names'.map .name) ∨
      (parts.foldl stackStep (some (names.map Subtype.val)) = none ∧
        .up ∈ (parts.filterMap partOf).foldl (FsPath.normalStep false) (names.map .name)) := by
  induction parts generalizing names with
  | nil => exact Or.inl ⟨names, rfl, rfl⟩
  | cons part parts ih =>
      have hpart := h part List.mem_cons_self
      have hparts := fun p hp => h p (List.mem_cons_of_mem part hp)
      rw [List.foldl_cons, stackStep]
      by_cases hskip : part = [] ∨ part = ascii "."
      · have hnone : partOf part = none := by
          rcases hskip with rfl | rfl
          · rfl
          · rfl
        rw [if_pos hskip, List.filterMap_cons_none hnone]
        exact ih names hparts
      · rw [if_neg hskip]
        by_cases hup : part = ascii ".."
        · have hsome : partOf part = some .up := by
            rw [hup]
            rfl
          rw [if_pos hup, List.filterMap_cons_some hsome, List.foldl_cons, Option.bind_some]
          rcases List.eq_nil_or_concat' names with rfl | ⟨init, last, rfl⟩
          · -- the stack is empty
            right
            rw [List.map_nil, if_pos rfl, foldl_stackStep_none]
            exact ⟨rfl, up_mem_foldl (List.mem_singleton_self _) _⟩
          · have hpop : FsPath.normalStep false ((init ++ [last]).map .name) .up =
                init.map .name := by
              simp [FsPath.normalStep]
            rw [if_neg (by simp), hpop, List.map_append, List.map_singleton,
              List.dropLast_concat]
            exact ih init hparts
        · obtain ⟨n, rfl, hsome⟩ := partOf_name hpart hskip hup
          rw [if_neg hup, List.filterMap_cons_some hsome, List.foldl_cons, Option.map_some]
          have hpush := ih (names ++ [n]) hparts
          rw [List.map_append, List.map_append] at hpush
          exact hpush

/-! ### `resolveVirtualPath` -/

theorem text_names (absolute : Bool) (names : List Name) :
    (⟨absolute, names.map .name⟩ : FsPath Name).text =
      if absolute then directoryText (names.map Subtype.val)
      else join slash (names.map Subtype.val) := by
  rw [FsPath.text, List.map_map]
  rfl

/-- The path of a normal directory without its first separator. -/
theorem parse_directoryText (names : List Name) :
    FsPath.parse (directoryText (names.map Subtype.val)).tail = ⟨false, names.map .name⟩ := by
  have hread := FsPath.parse_text (⟨false, names.map .name⟩ : FsPath Name)
  rw [text_names] at hread
  exact hread

/-- What `resolveVirtualPath` does, in terms of the stack. -/
theorem resolveVirtualPath_names_eq (names : List Name) (path : Bytes) (allowEmptyPath : Bool) :
    (∃ names' : List Name, stackRun (names.map Subtype.val) path = some (names'.map Subtype.val) ∧
      resolveVirtualPath (directoryText (names.map Subtype.val)) path allowEmptyPath =
        if path = [] ∧ allowEmptyPath = false then
          .error (.invalidArgument (ascii "path must not be empty"))
        else if path.head? = some slash then
          .error (.invalidArgument (ascii "path must be relative"))
        else .ok (directoryText (names'.map Subtype.val))) ∨
      (stackRun (names.map Subtype.val) path = none ∧
        isOk (resolveVirtualPath (directoryText (names.map Subtype.val)) path allowEmptyPath) =
          false) := by
  have hcombined : ∀ base requested : FsPath Name, base = ⟨false, names.map .name⟩ →
      requested = ⟨false, (pieces slash path).filterMap partOf⟩ →
      (if path = [] then base else base.append requested).lexicallyNormal =
        ⟨false, ((pieces slash path).filterMap partOf).foldl (FsPath.normalStep false)
          (names.map .name)⟩ := by
    rintro base requested rfl rfl
    have hnames : (names.map PathPart.name).foldl (FsPath.normalStep false) [] =
        names.map .name := by
      induction names using List.reverseRecOn with
      | nil => rfl
      | append_singleton names n ih =>
          rw [List.map_append, List.foldl_append, ih]
          rfl
    by_cases hempty : path = []
    · rw [if_pos hempty, hempty, FsPath.lexicallyNormal, hnames]
      rfl
    · rw [if_neg hempty, FsPath.append, if_neg Bool.false_ne_true, FsPath.lexicallyNormal,
        List.foldl_append, hnames]
  have hstep := foldl_normalStep names fun part (hpart : part ∈ pieces slash path) =>
    notMem_of_mem_pieces slash hpart
  rcases hstep with ⟨names', hstack, hnormal⟩ | ⟨hstack, hup⟩
  · refine Or.inl ⟨names', hstack, ?_⟩
    rw [resolveVirtualPath]
    by_cases hempty : path = [] ∧ allowEmptyPath = false
    · rw [if_pos hempty, if_pos hempty]
    · rw [if_neg hempty, if_neg hempty]
      by_cases habsolute : path.head? = some slash
      · have hparse : (FsPath.parse path).absolute = true := beq_iff_eq.mpr habsolute
        rw [if_pos habsolute]
        simp only [hparse, if_true]
      · have hparse : (FsPath.parse path).absolute = false :=
          eq_false_of_ne_true fun h => habsolute (beq_iff_eq.mp h)
        have hrequested : FsPath.parse path = ⟨false, (pieces slash path).filterMap partOf⟩ := by
          rw [← hparse]
          rfl
        have hcurrent : directoryText (names.map Subtype.val) ≠ [] := List.cons_ne_nil _ _
        have hhead : (directoryText (names.map Subtype.val)).head? = some 47 := rfl
        rw [if_neg habsolute]
        simp only [hparse, Bool.false_eq_true, if_false, hcurrent, hhead, if_true]
        rw [hcombined _ _ (parse_directoryText names) hrequested, hnormal]
        have hnames : ((names'.map PathPart.name).contains (.up : PathPart Name)) = false := by
          simp
        rw [hnames, if_neg Bool.false_ne_true, virtualPathFromRelative]
        cases names' with
        | nil => rfl
        | cons n names' =>
            have hsome : ¬(⟨false, (n :: names').map .name⟩ : FsPath Name).parts = [] :=
              List.cons_ne_nil _ _
            rw [if_neg hsome, text_names, if_neg Bool.false_ne_true]
            rfl
  · refine Or.inr ⟨hstack, ?_⟩
    rw [resolveVirtualPath]
    split
    · rfl
    · simp only
      split
      · rfl
      · rename_i habsolute
        have hparse := eq_false_of_ne_true habsolute
        have hrequested : FsPath.parse path = ⟨false, (pieces slash path).filterMap partOf⟩ := by
          rw [← hparse]
          rfl
        have hcurrent : directoryText (names.map Subtype.val) ≠ [] := List.cons_ne_nil _ _
        have hhead : (directoryText (names.map Subtype.val)).head? = some 47 := rfl
        simp only [hcurrent, hhead, if_true, if_false]
        rw [hcombined _ _ (parse_directoryText names) hrequested,
          if_pos (List.contains_iff_mem.mpr hup)]
        rfl

/-! ### The working directory over a run -/

theorem normalDirectory_names (names : List Name) :
    NormalDirectory (directoryText (names.map Subtype.val)) := by
  refine ⟨names.map Subtype.val, ?_, rfl⟩
  intro n hn
  obtain ⟨name, -, rfl⟩ := List.mem_map.mp hn
  exact name.property

theorem NormalDirectory.exists_names {directory : Bytes} (h : NormalDirectory directory) :
    ∃ names : List Name, directory = directoryText (names.map Subtype.val) := by
  obtain ⟨names, hnames, rfl⟩ := h
  refine ⟨names.attach.map fun n => ⟨n.val, hnames n.val n.property⟩, ?_⟩
  rw [List.map_map]
  show directoryText names = directoryText (names.attach.map Subtype.val)
  rw [List.attach_map_subtype_val]

/-- From a normal directory on, what is accepted is one. -/
theorem NormalDirectory.resolve {directory path virtualPath : Bytes} {allowEmptyPath : Bool}
    (h : NormalDirectory directory)
    (hok : resolveVirtualPath directory path allowEmptyPath = .ok virtualPath) :
    NormalDirectory virtualPath := by
  obtain ⟨names, rfl⟩ := h.exists_names
  rcases resolveVirtualPath_names_eq names path allowEmptyPath with ⟨names', -, heq⟩ | ⟨-, hfail⟩
  · rw [heq] at hok
    split at hok
    · cases hok
    · split at hok
      · cases hok
      · rw [← Except.ok.inj hok]
        exact normalDirectory_names names'
  · rw [hok] at hfail
    cases hfail

/-- The virtual path of whatever `resolveControlPath` accepts. -/
theorem virtualPath_of_resolveControlPath {t : FsTree Name} {cwd : List Name}
    {root workingDirectory path commandName : Bytes} {kind : ControlPathKind}
    {resolved : ResolvedControlPath} (hkind : kind ≠ .storTarget)
    (h : (resolveControlPath t cwd root workingDirectory path kind commandName).1 = .ok resolved) :
    resolveVirtualPath workingDirectory path (kind = .existingDirectory) =
      .ok resolved.virtualPath := by
  have hrefused : ∀ reason, refusePath commandName reason ≠ .ok resolved := by
    intro reason hrefuse
    cases hrefuse
  rw [resolveControlPath] at h
  split at h
  · cases h
  · rename_i virtualPath hvirtual
    rw [hvirtual]
    split at h
    · exact absurd h (hrefused _)
    · split at h
      · cases h
      · simp only [resolveExisting] at h
        split at h
        · exact absurd h (hrefused _)
        · split at h
          · exact absurd h (hrefused _)
          · split at h
            · exact absurd h (hrefused _)
            · split at h
              · split at h
                · rw [← Except.ok.inj h]
                · exact absurd h (hrefused _)
              · split at h
                · rw [← Except.ok.inj h]
                · exact absurd h (hrefused _)

namespace ControlConnection

variable {options : ControlServerOptions} {env : Circumstances} {c c' : ControlConnection}
  {response : ControlResponse}

/-- The directory of a session is normal. -/
def InNormalDirectory (c : ControlConnection) : Prop :=
  NormalDirectory c.session.workingDirectory

/-- What keeps the directory keeps it normal. -/
theorem InNormalDirectory.kept (h : c.InNormalDirectory)
    (hsame : c'.session.workingDirectory = c.session.workingDirectory) : c'.InNormalDirectory := by
  rw [InNormalDirectory, hsame]
  exact h

theorem handled_workingDirectory {s : ControlSession} {command : ControlCommand}
    {result : ControlResponse × ControlSession} (h : s.Handled command result) :
    result.2.workingDirectory = s.workingDirectory := by
  cases h with
  | _ => rfl

theorem setWorkingDirectory_normal (s : ControlSession) {directory : Bytes}
    (h : NormalDirectory directory) : (s.setWorkingDirectory directory).workingDirectory = directory := by
  obtain ⟨names, -, rfl⟩ := h
  rfl

/-- **CWD and CDUP** lead from a normal directory to a normal one. -/
theorem runCwd_normal (h : c.InNormalDirectory) :
    (c.runCwd options env response).InNormalDirectory := by
  rw [InNormalDirectory, runCwd]
  split
  · rw [reply_session, setWorkingDirectory_normal _ normalDirectory_root]
    exact normalDirectory_root
  · split
    · rw [reply_session]
      exact h
    · rename_i path hpath
      have hvirtual := virtualPath_of_resolveControlPath (by decide) hpath
      have hnormal := h.resolve hvirtual
      rw [reply_session, setWorkingDirectory_normal _ hnormal]
      exact hnormal

theorem runSize_session : (c.runSize options env response).session = c.session := by
  rw [runSize]
  split
  · rw [reply_session]
  · split
    · rw [reply_session]
    · rw [reply_session]

theorem runMdtm_session : (c.runMdtm options env response).session = c.session := by
  rw [runMdtm]
  split
  · rw [reply_session]
  · split
    · rw [reply_session]
    · rw [reply_session]

theorem startTransfer_workingDirectory (opening : Bytes) :
    (startTransfer env c response opening).session.workingDirectory =
      c.session.workingDirectory := by
  rcases hsend : env.send (transferPrelude env response opening) with e | u
  · rw [startTransfer, sendLine_error hsend]
  · rw [startTransfer, sendLine_ok hsend]
    simp only [transferOn]
    split
    · rw [reply_session]
    · rw [reply_session]
      rfl

theorem runStor_workingDirectory :
    (c.runStor options env response).session.workingDirectory = c.session.workingDirectory := by
  rw [runStor]
  split
  · rw [notReady, reply_session]
  · split
    · rw [reply_session]
    · split
      · rw [reply_session]
      · rw [startTransfer_workingDirectory]

theorem runRetr_workingDirectory :
    (c.runRetr options env response).session.workingDirectory = c.session.workingDirectory := by
  rw [runRetr]
  split
  · rw [notReady, reply_session]
  · split
    · rw [reply_session]
    · split
      · rw [reply_session]
      · rw [startTransfer_workingDirectory]

theorem sendAsciiData_session (payload : Bytes) :
    (env.sendAsciiData c payload).2.session = c.session := by
  rw [Circumstances.sendAsciiData]
  split
  · rfl
  · split
    · rfl
    · split
      · rfl
      · rfl

theorem runListLike_workingDirectory (namesOnly : Bool) :
    (c.runListLike options env response namesOnly).session.workingDirectory =
      c.session.workingDirectory := by
  rw [runListLike]
  split
  · rw [notReady, reply_session]
  · split
    · rw [reply_session]
      rfl
    · split
      · rw [reply_session]
        rfl
      · rcases hsend : env.send (listPrelude namesOnly) with e | u
        · simp only [sendLine_error hsend]
        · simp only [sendLine_ok hsend]
          split
          · rw [reply_session]
            show (env.sendAsciiData _ _).2.session.workingDirectory = _
            rw [sendAsciiData_session]
          · rw [reply_session]
            show (env.sendAsciiData _ _).2.session.workingDirectory = _
            rw [sendAsciiData_session]

theorem openPassive_workingDirectory {extended : Bool}
    (h : c.openPassive options env extended = some c') :
    c'.session.workingDirectory = c.session.workingDirectory := by
  rw [openPassive] at h
  split at h
  · cases h
  · simp only at h
    split at h
    · rw [← Option.some.inj h, sendLine_session]
      rfl
    · split at h
      · rw [← Option.some.inj h, dropListener, reply_session]
        rfl
      · rw [← Option.some.inj h, sendLine_session]
        rfl

theorem answer_session (h : c.answer env response = some c') : c'.session = c.session := by
  have hkept := (@sendResponse_kept env c response.lines).1
  rw [answer] at h
  split at h
  · cases h
  · rename_i sent hsend
    rw [hsend] at hkept
    split at h
    · cases h
    · rw [← Option.some.inj h]
      exact hkept

theorem perform_normal (h : c.InNormalDirectory)
    (hperform : c.perform options env response = some c') : c'.InNormalDirectory := by
  rw [perform] at hperform
  cases haction : response.action with
  | none | quit =>
      simp only [haction] at hperform
      exact h.kept (congrArg ControlSession.workingDirectory (answer_session hperform))
  | openPassiveEpsv | openPassivePasv =>
      simp only [haction] at hperform
      exact h.kept (openPassive_workingDirectory hperform)
  | querySize =>
      simp only [haction, Option.some.injEq] at hperform
      exact hperform ▸ h.kept (congrArg ControlSession.workingDirectory runSize_session)
  | queryMdtm =>
      simp only [haction, Option.some.injEq] at hperform
      exact hperform ▸ h.kept (congrArg ControlSession.workingDirectory runMdtm_session)
  | changeDirectory =>
      simp only [haction, Option.some.injEq] at hperform
      exact hperform ▸ runCwd_normal h
  | startStor =>
      simp only [haction, Option.some.injEq] at hperform
      exact hperform ▸ h.kept runStor_workingDirectory
  | startRetr =>
      simp only [haction, Option.some.injEq] at hperform
      exact hperform ▸ h.kept runRetr_workingDirectory
  | startList =>
      simp only [haction, Option.some.injEq] at hperform
      exact hperform ▸ h.kept (runListLike_workingDirectory false)
  | startNlst =>
      simp only [haction, Option.some.injEq] at hperform
      exact hperform ▸ h.kept (runListLike_workingDirectory true)

/-- **Any line** leaves the session in a normal directory. -/
theorem serve_normal {line : Bytes} (h : c.InNormalDirectory)
    (hserve : c.serve options env line = some c') : c'.InNormalDirectory := by
  rw [serve] at hserve
  split at hserve
  · rw [← Option.some.inj hserve]
    exact h.kept (congrArg ControlSession.workingDirectory (reply_session _ _))
  · rename_i command hparse
    refine perform_normal (h.kept ?_) hserve
    exact handled_workingDirectory (ControlSession.handleCommand_cases c.session command)

theorem inNormalDirectory_of_reachable (h : (controlLoop options).Reachable c) :
    c.InNormalDirectory := by
  apply h.invariant
  · rintro c rfl
    exact normalDirectory_root
  · rintro served c c' - hc hserve
    exact serve_normal hc hserve

end ControlConnection

/-- **`resolveVirtualPath` is the stack machine**, and the working directory is a
normal one after any commands. -/
theorem resolveVirtualPath_stack (options : ControlServerOptions) :
    (∀ (names : List Name) (path : Bytes) (allowEmptyPath : Bool),
      (isOk (resolveVirtualPath (directoryText (names.map Subtype.val)) path allowEmptyPath) =
          false ↔
        path.head? = some slash ∨ (path = [] ∧ allowEmptyPath = false) ∨
          stackRun (names.map Subtype.val) path = none) ∧
      ∀ virtualPath,
        resolveVirtualPath (directoryText (names.map Subtype.val)) path allowEmptyPath =
            .ok virtualPath →
          ∃ stack, stackRun (names.map Subtype.val) path = some stack ∧
            virtualPath = directoryText stack) ∧
      ∀ c : ControlConnection, (controlLoop options).Reachable c →
        NormalDirectory c.session.workingDirectory := by
  refine ⟨fun names path allowEmptyPath => ?_, fun c hc =>
    ControlConnection.inNormalDirectory_of_reachable hc⟩
  rcases resolveVirtualPath_names_eq names path allowEmptyPath with ⟨names', hstack, heq⟩ | ⟨hstack, hfail⟩
  · rw [heq]
    constructor
    · split
      · rename_i hempty
        exact ⟨fun _ => Or.inr (Or.inl hempty), fun _ => rfl⟩
      · rename_i hempty
        split
        · rename_i habsolute
          exact ⟨fun _ => Or.inl habsolute, fun _ => rfl⟩
        · rename_i habsolute
          refine ⟨fun hok => (by cases hok), ?_⟩
          rintro (h | h | h)
          · exact absurd h habsolute
          · exact absurd h hempty
          · rw [hstack] at h
            cases h
    · intro virtualPath hok
      split at hok
      · cases hok
      · split at hok
        · cases hok
        · exact ⟨_, hstack, (Except.ok.inj hok).symm⟩
  · refine ⟨⟨fun _ => Or.inr (Or.inr hstack), fun _ => hfail⟩, ?_⟩
    intro virtualPath hok
    rw [hok] at hfail
    cases hfail

end GridFlux
