/-
GridFlux/IoUringRuns.lean

What holds in every run of the io_uring loops, whatever the kernel chooses.

`Placed` is kept by every step, also by one that fails: the slots keep apart,
what they hold and what has not been handed out is what has not been moved, and
what has been moved stands at its own place.  `Flying` holds while the call has
not failed: each slot's piece is in flight as a whole, and each request at the
kernel is the one its slot describes.
-/
import GridFlux.IoUring
import GridFlux.Pieces
import Mathlib.Data.List.Perm.Basic

namespace GridFlux

open SharedFile Pieces

/-- The positions a slot still has to move. -/
def IoUringSlot.piece (slot : IoUringSlot) : Piece := ⟨slot.baseIndex, slot.remaining⟩

namespace IoUringState

def pieces (s : IoUringState) : List Piece := s.slots.map IoUringSlot.piece

/-- The positions of the buffer that have been moved. -/
def movedPositions (s : IoUringState) : Set Nat :=
  {x | ∃ m ∈ s.moves, m.position ≤ x ∧ x < m.position + m.count}

def inFlightSlots (s : IoUringState) : Nat := s.slots.countP (·.inFlight)

/-- The call has returned an error. -/
def Failed (s : IoUringState) : Prop := ∃ e, s.phase = .finished (.error e)

theorem pieces_getElem? {s : IoUringState} {i : Nat} {slot : IoUringSlot}
    (h : s.slots[i]? = some slot) : s.pieces[i]? = some slot.piece := by
  rw [pieces, List.getElem?_map, h]
  rfl

theorem pieces_set (s : IoUringState) (i : Nat) (slot : IoUringSlot) :
    (s.slots.set i slot).map IoUringSlot.piece = s.pieces.set i slot.piece :=
  List.map_set

theorem exists_of_pieces {s : IoUringState} {i : Nat} {p : Piece} (h : s.pieces[i]? = some p) :
    ∃ slot, s.slots[i]? = some slot ∧ p = slot.piece := by
  rw [pieces, List.getElem?_map, Option.map_eq_some_iff] at h
  obtain ⟨slot, hslot, rfl⟩ := h
  exact ⟨slot, hslot, rfl⟩

end IoUringState

namespace IoUringCall

variable (call : IoUringCall)

/-! ### What has been moved -/

/-- The side the bytes go to. -/
def target (d : FileData) : Bytes :=
  match call.operation with
  | .read => d.buffer
  | .write => d.content

/-- The side they come from. -/
def source (d : FileData) : Bytes :=
  match call.operation with
  | .read => d.content
  | .write => d.buffer

/-- Where the buffer's first position goes. -/
def targetBase : Nat :=
  match call.operation with
  | .read => 0
  | .write => call.offset

/-- What the call is to put into the target. -/
def wanted : Segment UInt8 :=
  match call.operation with
  | .read => ⟨0, World.slice call.data.content call.offset call.length⟩
  | .write => ⟨call.offset, call.data.buffer⟩

/-- The target has been overwritten with parts of what the call is to put
there, and these positions of the buffer have been moved. -/
structure Filled (d : FileData) (positions : Set Nat) : Prop where
  rewritten : Rewritten 0 {call.wanted} call.wanted.end (call.target call.data) (call.target d)
  covered : Covered {call.wanted} {x | ∃ p ∈ positions, x = call.targetBase + p} (call.target d)
  source : call.source d = call.source call.data

variable {call} {d : FileData} {positions : Set Nat} {position count : Nat}

theorem filled_begin : call.Filled call.data ∅ where
  rewritten := .refl
  covered := by
    rintro x ⟨p, hp, -⟩
    exact hp.elim
  source := rfl

/-- What a transfer puts into the target is a part of what is wanted. -/
theorem part_moved (hle : position + count ≤ call.length)
    (hsource : call.source d = call.source call.data)
    (hcan : d.CanMove call.operation (call.offset + position) count) :
    ∃ data : Bytes, data.length = count ∧ call.wanted.Part (call.targetBase + position) data ∧
      call.target (d.moved call.operation (call.offset + position) position count) =
        overwrite 0 (call.target d) (call.targetBase + position) data := by
  obtain ⟨operation, offset, queueDepth, batchSize, data⟩ := call
  cases operation with
  | read =>
      have hcontent : d.content = data.content := hsource
      have hlong : offset + position + count ≤ data.content.length := by
        rw [← hcontent]
        exact hcan
      refine ⟨World.slice data.content (offset + position) count, World.length_slice hlong, ?_, ?_⟩
      · have hlength : position + count ≤ data.buffer.length := hle
        have hseg := (Segment.part_self (Segment.mk 0 (World.slice data.content offset data.buffer.length))).drop
          position (by
            show position ≤ (World.slice _ _ _).length
            rw [World.slice, List.length_take, List.length_drop]
            omega)
        have hslice : ((World.slice data.content offset data.buffer.length).drop position).take count =
            World.slice data.content (offset + position) count := by
          rw [World.slice, World.slice, List.drop_take, List.take_take, List.drop_drop,
            Nat.min_eq_left (by omega)]
        have htake := hseg.take count
        rw [hslice] at htake
        exact htake
      · show overwrite 0 d.buffer position (World.slice d.content (offset + position) count) = _
        rw [hcontent]
        show _ = overwrite 0 d.buffer (0 + position) _
        rw [Nat.zero_add]
  | write =>
      have hbuffer : d.buffer = data.buffer := hsource
      have hlength : position + count ≤ data.buffer.length := hle
      refine ⟨World.slice data.buffer position count, World.length_slice hlength, ?_, ?_⟩
      · exact ((Segment.part_self (Segment.mk offset data.buffer)).drop position
          (by show position ≤ data.buffer.length; omega)).take count
      · show overwrite 0 d.content (offset + position) (World.slice d.buffer position count) = _
        rw [hbuffer]
        rfl

theorem source_moved (d : FileData) (fileOffset position count : Nat) :
    call.source (d.moved call.operation fileOffset position count) = call.source d := by
  obtain ⟨operation, offset, queueDepth, batchSize, data⟩ := call
  cases operation with
  | read => rfl
  | write => rfl

theorem Filled.moved (h : call.Filled d positions) (hle : position + count ≤ call.length)
    (hcan : d.CanMove call.operation (call.offset + position) count) :
    call.Filled (d.moved call.operation (call.offset + position) position count)
      (positions ∪ Set.Ico position (position + count)) := by
  obtain ⟨data, hlength, hpart, htarget⟩ := part_moved hle h.source hcan
  refine ⟨?_, ?_, (source_moved d _ _ _).trans h.source⟩
  · rw [htarget]
    exact h.rewritten.overwrite (Set.mem_singleton _) hpart hpart.le_end
  · rw [htarget]
    have hcovered := h.covered.overwrite 0 (Set.mem_singleton _) hpart
    rintro x ⟨p, hp | hp, rfl⟩
    · exact hcovered _ (Or.inl ⟨p, hp, rfl⟩)
    · refine hcovered _ (Or.inr ⟨Nat.add_le_add_left hp.1 _, ?_⟩)
      have := hp.2
      omega

variable (call) in
theorem wanted_offset : call.wanted.offset = call.targetBase := by
  obtain ⟨operation, offset, queueDepth, batchSize, data⟩ := call
  cases operation with
  | read => rfl
  | write => rfl

variable (call) in
theorem length_wanted_le : call.wanted.data.length ≤ call.length := by
  obtain ⟨operation, offset, queueDepth, batchSize, data⟩ := call
  cases operation with
  | read => exact List.length_take_le _ _
  | write => exact Nat.le_refl _

section All

variable (h : call.Filled d positions) (hall : ∀ x, x < call.length → x ∈ positions)
include h hall

/-- Once everything has been moved, nothing wanted is missing. -/
theorem Filled.length_wanted : call.wanted.data.length = call.length := by
  apply Nat.le_antisymm (length_wanted_le call)
  by_contra hshort
  have hshort' : call.wanted.data.length < call.length := Nat.not_le.mp hshort
  obtain ⟨hlt, seg, hseg, heq⟩ := h.covered (call.targetBase + call.wanted.data.length)
    ⟨_, hall _ hshort', rfl⟩
  cases hseg
  rw [List.getElem?_eq_getElem hlt] at heq
  have hend := (Segment.mem_of_wanted heq.symm).2
  rw [Segment.end, wanted_offset] at hend
  omega

theorem Filled.target_eq (hpos : 0 < call.length) :
    call.target d =
      overwrite 0 (call.target call.data) call.targetBase call.wanted.data := by
  have hlength := h.length_wanted hall
  rw [← wanted_offset]
  apply h.rewritten.eq_overwrite _ (List.length_pos_iff.mp (by omega)) (Nat.le_refl _)
  intro x hx
  have hle : call.wanted.offset ≤ x := hx.1
  have hlt : x < call.wanted.offset + call.wanted.data.length := hx.2
  rw [wanted_offset] at hle hlt
  exact h.covered x ⟨x - call.targetBase, hall _ (by omega), by omega⟩

/-- When everything has been moved, everything wanted stands in the target, and
the source had all of it. -/
theorem Filled.all (hpos : 0 < call.length) :
    d = call.data.transferred call.operation call.offset ∧
      call.data.CanMove call.operation call.offset call.length := by
  have htarget := h.target_eq hall hpos
  have hlength := h.length_wanted hall
  have hsource := h.source
  obtain ⟨operation, offset, queueDepth, batchSize, data⟩ := call
  have hne : ¬data.buffer = [] := List.length_pos_iff.mp hpos
  rw [FileData.transferred, if_neg hne]
  obtain ⟨content, buffer⟩ := d
  cases operation with
  | read =>
      refine ⟨?_, ?_⟩
      · cases hsource
        exact congrArg (FileData.mk _) htarget
      · have hslice : (World.slice data.content offset data.buffer.length).length =
            data.buffer.length := hlength
        rw [World.slice, List.length_take, List.length_drop] at hslice
        have hpos' : 0 < data.buffer.length := hpos
        show offset + data.buffer.length ≤ data.content.length
        omega
  | write =>
      refine ⟨?_, trivial⟩
      cases hsource
      have hslice : World.slice data.buffer 0 data.buffer.length = data.buffer := by
        rw [World.slice, List.drop_zero, List.take_length]
      show _ = FileData.mk (World.patch data.content offset (World.slice data.buffer 0 _)) _
      rw [hslice]
      exact congrArg (FileData.mk · data.buffer) htarget

end All

/-! ### The invariant -/

variable (call)

structure Placed (s : IoUringState) : Prop where
  apart : Apart s.pieces
  unfinished : unfinished s.pieces s.nextIndex call.length =
    Set.Ico 0 call.length \ s.movedPositions
  filled : call.Filled s.data s.movedPositions
  moves : ∀ m ∈ s.moves, m.fileOffset = call.offset + m.position ∧
    m.position + m.count ≤ call.length

/-- A slot's piece has been handed out, and is in flight as a whole if anything
is left of it. -/
structure SlotOk (nextIndex : Nat) (slot : IoUringSlot) : Prop where
  le_next : slot.baseIndex + slot.remaining ≤ nextIndex
  inFlight_iff : slot.inFlight = true ↔ 0 < slot.remaining
  submitted : 0 < slot.remaining → slot.submittedLength = slot.remaining
  place : 0 < slot.remaining → slot.offset = call.offset + slot.baseIndex

/-- The requests are those of slots in flight, at most one for each. -/
structure Outstanding (slots : List IoUringSlot) (requests : List IoUringRequest) : Prop where
  described : ∀ r ∈ requests, ∃ (i : Nat) (slot : IoUringSlot), slots[i]? = some slot ∧
    slot.inFlight = true ∧ r = call.request slot i
  nodup : (requests.map IoUringRequest.userData).Nodup

structure Flying (s : IoUringState) : Prop where
  accepted : 0 < call.length → call.offset ≤ World.kMaxOffset
  next_le : s.nextIndex ≤ call.length
  counted : s.inFlight = s.inFlightSlots
  slot : ∀ (i : Nat) (slot : IoUringSlot), s.slots[i]? = some slot → call.SlotOk s.nextIndex slot
  requests : call.Outstanding s.slots (s.prepared ++ s.taken)

structure Sound (s : IoUringState) : Prop where
  placed : call.Placed s
  flying : ¬s.Failed → call.Flying s
  done : s.phase = .finished (.ok ()) → call.length ≤ s.nextIndex ∧ s.inFlight = 0

variable {call} {s s' : IoUringState}

theorem Placed.phase (h : call.Placed s) (phase : IoUringPhase) :
    call.Placed { s with phase := phase } :=
  ⟨h.apart, h.unfinished, h.filled, h.moves⟩

theorem Flying.phase (h : call.Flying s) (phase : IoUringPhase) :
    call.Flying { s with phase := phase } :=
  ⟨h.accepted, h.next_le, h.counted, h.slot, h.requests⟩

theorem Sound.failed (h : call.Placed s) (e : Status) : call.Sound (s.finish (.error e)) where
  placed := h.phase _
  flying hnot := absurd ⟨e, rfl⟩ hnot
  done heq := by cases heq

theorem Sound.of_flying (h : call.Placed s) (h' : call.Flying s)
    (hphase : s.phase ≠ .finished (.ok ())) : call.Sound s where
  placed := h
  flying _ := h'
  done heq := absurd heq hphase

/-- The loop goes on. -/
theorem Sound.running (h : call.Placed s) (h' : call.Flying s) {phase : IoUringPhase}
    (hphase : phase ≠ .finished (.ok ())) : call.Sound { s with phase := phase } :=
  Sound.of_flying (h.phase phase) (h'.phase phase) hphase

/-! ### Requests -/

section Outstanding

variable {slots : List IoUringSlot} {requests requests' : List IoUringRequest} {i : Nat}
  {new : IoUringSlot}

theorem Outstanding.perm (h : call.Outstanding slots requests) (hperm : requests'.Perm requests) :
    call.Outstanding slots requests' where
  described r hr := h.described r (hperm.mem_iff.mp hr)
  nodup := (hperm.map _).nodup_iff.mpr h.nodup

/-- A slot without a request may change. -/
theorem Outstanding.set (h : call.Outstanding slots requests)
    (hfree : ∀ r ∈ requests, r.userData ≠ i + 1) : call.Outstanding (slots.set i new) requests where
  described r hr := by
    obtain ⟨j, slot, hslot, hflying, rfl⟩ := h.described r hr
    have hne : j + 1 ≠ i + 1 := hfree _ hr
    refine ⟨j, slot, ?_, hflying, rfl⟩
    rw [List.getElem?_set_ne (by omega)]
    exact hslot
  nodup := h.nodup

/-- A slot that is not in flight has no request. -/
theorem Outstanding.free (h : call.Outstanding slots requests) {slot : IoUringSlot}
    (hslot : slots[i]? = some slot) (hidle : slot.inFlight = false) :
    ∀ r ∈ requests, r.userData ≠ i + 1 := by
  intro r hr heq
  obtain ⟨j, slot', hslot', hflying, rfl⟩ := h.described r hr
  have hji : j = i := Nat.succ.inj heq
  subst hji
  rw [hslot] at hslot'
  cases hslot'
  rw [hidle] at hflying
  cases hflying

theorem Outstanding.add (h : call.Outstanding slots requests)
    (hfree : ∀ r ∈ requests, r.userData ≠ i + 1) {slot : IoUringSlot}
    (hslot : slots[i]? = some slot) (hflying : slot.inFlight = true) :
    call.Outstanding slots (call.request slot i :: requests) where
  described r hr := by
    rcases List.mem_cons.mp hr with rfl | hr
    · exact ⟨i, slot, hslot, hflying, rfl⟩
    · exact h.described r hr
  nodup := by
    rw [List.map_cons, List.nodup_cons]
    refine ⟨fun hmem => ?_, h.nodup⟩
    obtain ⟨r, hr, heq⟩ := List.mem_map.mp hmem
    exact hfree r hr heq

theorem Outstanding.remove {r : IoUringRequest} (h : call.Outstanding slots (r :: requests)) :
    call.Outstanding slots requests ∧ ∀ r' ∈ requests, r'.userData ≠ r.userData := by
  have hnodup := h.nodup
  rw [List.map_cons, List.nodup_cons] at hnodup
  refine ⟨⟨fun r' hr' => h.described r' (List.mem_cons_of_mem _ hr'), hnodup.2⟩, ?_⟩
  intro r' hr' heq
  exact hnodup.1 (heq ▸ List.mem_map_of_mem hr')

end Outstanding

end IoUringCall

/-- The in-flight slots after one has changed. -/
theorem countP_set_add {slots : List IoUringSlot} {i : Nat} {old new : IoUringSlot}
    (h : slots[i]? = some old) :
    (slots.set i new).countP (·.inFlight) + old.inFlight.toNat =
      slots.countP (·.inFlight) + new.inFlight.toNat := by
  obtain ⟨hlt, rfl⟩ := List.getElem?_eq_some_iff.mp h
  rw [List.countP_set hlt]
  by_cases hold : slots[i].inFlight = true
  · have hpos : 0 < slots.countP (·.inFlight) :=
      List.countP_pos_iff.mpr ⟨_, List.getElem_mem hlt, hold⟩
    rw [if_pos hold, hold]
    cases new.inFlight with
    | true => simp only [if_true, Bool.toNat_true]; omega
    | false => simp only [Bool.false_eq_true, if_false, Bool.toNat_true, Bool.toNat_false]; omega
  · rw [if_neg hold, (Bool.not_eq_true _).mp hold]
    cases new.inFlight with
    | true => simp only [if_true, Bool.toNat_true, Bool.toNat_false]; omega
    | false => simp only [Bool.false_eq_true, if_false, Bool.toNat_false]; omega

/-! ### Submission -/

/-- Submitting moves requests from one queue to the other. -/
theorem IoUringState.submitPending_eq {k : Kernel} {n : Nat} {s s' : IoUringState}
    {status : Except Status Unit} (h : s.submitPending k n = some (status, s')) :
    ∃ prepared taken, s' = { s with prepared := prepared, taken := taken } ∧
      (prepared ++ taken).Perm (s.prepared ++ s.taken) := by
  rw [submitPending] at h
  split at h
  · cases h
    exact ⟨_, _, rfl, .refl _⟩
  · split at h
    · cases h
      exact ⟨_, _, rfl, .refl _⟩
    · split at h
      · cases h
        refine ⟨_, _, rfl, ?_⟩
        -- the taken ones come from the front
        have hsplit : s.prepared.drop k.submitResult.toNat ++ s.prepared.take k.submitResult.toNat
            |>.Perm s.prepared := by
          apply List.perm_append_comm.trans
          rw [List.take_append_drop]
        apply (List.perm_append_comm.append_left _).trans
        rw [← List.append_assoc]
        exact hsplit.append_right _
      · cases h

namespace IoUringCall

variable {call : IoUringCall} {s s' : IoUringState} {k : Kernel}

theorem Placed.queues (h : call.Placed s) (prepared taken : List IoUringRequest) :
    call.Placed { s with prepared := prepared, taken := taken } :=
  ⟨h.apart, h.unfinished, h.filled, h.moves⟩

theorem Flying.queues (h : call.Flying s) {prepared taken : List IoUringRequest}
    (hperm : (prepared ++ taken).Perm (s.prepared ++ s.taken)) :
    call.Flying { s with prepared := prepared, taken := taken } :=
  ⟨h.accepted, h.next_le, h.counted, h.slot, h.requests.perm hperm⟩

theorem Sound.submit (h : call.Placed s) (h' : call.Flying s) {n : Nat}
    (hstep : s.submit k n = some s') : call.Sound s' := by
  rw [IoUringState.submit] at hstep
  rcases hsubmit : s.submitPending k n with _ | ⟨e | _, s₁⟩
  · rw [hsubmit] at hstep
    cases hstep
  · rw [hsubmit] at hstep
    obtain ⟨prepared, taken, rfl, -⟩ := IoUringState.submitPending_eq hsubmit
    cases hstep
    exact Sound.failed (h.queues _ _) e
  · rw [hsubmit] at hstep
    obtain ⟨prepared, taken, rfl, hperm⟩ := IoUringState.submitPending_eq hsubmit
    cases hstep
    apply Sound.running (h.queues _ _) (h'.queues hperm)
    split
    · exact IoUringPhase.noConfusion
    · exact IoUringPhase.noConfusion

/-! ### Handing out a piece -/

theorem Placed.keep (h : call.Placed s) (hdata : s'.data = s.data) (hmoves : s'.moves = s.moves)
    (hapart : Apart s'.pieces)
    (hunfinished : Pieces.unfinished s'.pieces s'.nextIndex call.length =
      Pieces.unfinished s.pieces s.nextIndex call.length) : call.Placed s' where
  apart := hapart
  unfinished := by
    rw [hunfinished, h.unfinished, IoUringState.movedPositions, IoUringState.movedPositions, hmoves]
  filled := by
    rw [hdata, IoUringState.movedPositions, hmoves]
    exact h.filled
  moves := by
    rw [hmoves]
    exact h.moves

theorem maxBytesPerSqe_pos (call : IoUringCall) : 0 < call.maxBytesPerSqe :=
  Nat.le_max_left 1 _

/-- Everything handed out lies below `nextIndex`. -/
theorem Flying.below (h : call.Flying s) (j : Nat) (p : Piece) (hp : s.pieces[j]? = some p) :
    p.start + p.size ≤ s.nextIndex := by
  obtain ⟨slot, hslot, rfl⟩ := IoUringState.exists_of_pieces hp
  exact (h.slot j slot hslot).le_next

theorem SlotOk.mono {next next' : Nat} {slot : IoUringSlot} (h : call.SlotOk next slot)
    (hle : next ≤ next') : call.SlotOk next' slot :=
  ⟨h.le_next.trans hle, h.inFlight_iff, h.submitted, h.place⟩

/-- What holds of every slot holds after one has changed, if it holds of the new
one. -/
theorem forall_slots_set {slots : List IoUringSlot} {i : Nat} {new : IoUringSlot}
    {P : IoUringSlot → Prop} (h : ∀ (j : Nat) (slot : IoUringSlot), slots[j]? = some slot → P slot)
    (hnew : P new) (j : Nat) (slot : IoUringSlot) (hslot : (slots.set i new)[j]? = some slot) :
    P slot := by
  rw [List.getElem?_set] at hslot
  split at hslot
  · split at hslot
    · cases hslot
      exact hnew
    · cases hslot
  · exact h j slot hslot

/-- The slot that takes the next `size` positions, once it is prepared. -/
def assignedSlot (call : IoUringCall) (size : Nat) (s : IoUringState) : IoUringSlot :=
  ⟨call.offset + s.nextIndex, s.nextIndex, size, size, true⟩

def assigned (call : IoUringCall) (i size : Nat) (s : IoUringState) : IoUringState :=
  { s with
    slots := s.slots.set i (call.assignedSlot size s)
    nextIndex := s.nextIndex + size
    inFlight := s.inFlight + 1
    prepared := s.prepared ++ [call.request (call.assignedSlot size s) i] }

section Fill

variable {i n size : Nat} {slot : IoUringSlot} (hslot : s.slots[i]? = some slot)
  (hempty : slot.remaining = 0) (hle : s.nextIndex + size ≤ call.length)
include hslot hempty hle

theorem Placed.assign_early (h : call.Placed s) (h' : call.Flying s) {new : IoUringSlot}
    (hnew : new.piece = ⟨s.nextIndex, size⟩) :
    call.Placed { s with slots := s.slots.set i new } := by
  refine h.keep rfl rfl ?_ ?_
  · rw [IoUringState.pieces, IoUringState.pieces_set, hnew]
    exact h.apart.assign h'.below
  · rw [IoUringState.pieces, IoUringState.pieces_set, hnew]
    exact unfinished_assign_early (IoUringState.pieces_getElem? hslot) hempty hle

theorem Placed.assign (h : call.Placed s) (h' : call.Flying s) :
    call.Placed (call.assigned i size s) := by
  refine h.keep rfl rfl ?_ ?_
  · rw [IoUringState.pieces, assigned, IoUringState.pieces_set]
    exact h.apart.assign h'.below
  · rw [IoUringState.pieces, assigned, IoUringState.pieces_set]
    exact unfinished_assign (IoUringState.pieces_getElem? hslot) hempty hle

omit hempty in
theorem Flying.assign (h : call.Flying s) (hidle : slot.inFlight = false) (hsize : 0 < size) :
    call.Flying (call.assigned i size s) := by
  have hfree := h.requests.free hslot hidle
  obtain ⟨hlt, -⟩ := List.getElem?_eq_some_iff.mp hslot
  refine ⟨h.accepted, hle, ?_, ?_, ?_⟩
  · have hcount := @countP_set_add _ _ _ (call.assignedSlot size s) hslot
    have hcounted := h.counted
    rw [IoUringState.inFlightSlots] at hcounted
    rw [hidle] at hcount
    show s.inFlight + 1 = (s.slots.set i (call.assignedSlot size s)).countP (·.inFlight)
    simp only [assignedSlot, Bool.toNat_false, Bool.toNat_true] at hcount ⊢
    omega
  · apply forall_slots_set
    · intro j slot hslot
      exact (h.slot j slot hslot).mono (Nat.le_add_right _ _)
    · exact ⟨Nat.le_refl _, ⟨fun _ => hsize, fun _ => rfl⟩, fun _ => rfl, fun _ => rfl⟩
  · have hset : call.Outstanding (s.slots.set i (call.assignedSlot size s)) _ := h.requests.set hfree
    apply (hset.add hfree (List.getElem?_set_self hlt) rfl).perm
    show (s.prepared ++ [_] ++ s.taken).Perm _
    rw [List.append_assoc]
    exact List.perm_middle

end Fill

theorem Sound.fill (h : call.Placed s) (h' : call.Flying s) (i n : Nat) :
    call.Sound (call.fill k i n s) := by
  rw [IoUringCall.fill]
  rcases hslot : s.slots[i]? with _ | slot
  · exact Sound.running h h' IoUringPhase.noConfusion
  · dsimp only
    split
    · exact Sound.running h h' IoUringPhase.noConfusion
    · rename_i hroom
      split
      · exact Sound.running h h' IoUringPhase.noConfusion
      · rename_i hidle
        have hempty : slot.remaining = 0 := by
          by_contra hne
          exact hidle (Or.inr hne)
        have hoff : slot.inFlight = false := by
          by_contra hne
          exact hidle (Or.inl ((Bool.not_eq_false _).mp hne))
        have hpos := call.maxBytesPerSqe_pos
        have hsize : 0 < min call.maxBytesPerSqe (call.length - s.nextIndex) := by omega
        have hle : s.nextIndex + min call.maxBytesPerSqe (call.length - s.nextIndex) ≤
            call.length := by omega
        by_cases hsqe : k.hasSqe = true
        · rw [prepFileSqe, if_pos hsqe]
          exact Sound.running (h.assign hslot hempty hle h') (h'.assign hslot hle hoff hsize)
            IoUringPhase.noConfusion
        · -- without an entry the slot has its piece, and `nextIndex` has not moved
          rw [prepFileSqe, if_neg hsqe]
          exact Sound.failed (h.assign_early hslot hempty hle h' rfl) _

/-! ### A completion -/

/-- The slot once `n` bytes of its piece have been moved. -/
def advanced (n : Nat) (slot : IoUringSlot) : IoUringSlot :=
  { slot with
    offset := slot.offset + n
    baseIndex := slot.baseIndex + n
    remaining := slot.remaining - n
    inFlight := false }

/-- A completion is handled by advancing the slot, also where that is by
nothing; the status says whether the loop goes on. -/
theorem handleCompletionResult_eq {operation : IoUringOperation} {result : Int}
    {slot : IoUringSlot} (h : result.toNat ≤ slot.submittedLength) :
    ∃ status, handleCompletionResult operation result slot = (status, advanced result.toNat slot) ∧
      (isOk status = true ↔ 0 < result ∨ result < 0 ∧ isRetryError (-result) = true) := by
  rw [handleCompletionResult.eq_def]
  dsimp only
  by_cases hneg : result < 0
  · have hzero : result.toNat = 0 := by omega
    rw [if_pos hneg, hzero]
    by_cases hretry : isRetryError (-result) = true
    · rw [if_pos hretry]
      exact ⟨_, rfl, iff_of_true rfl (Or.inr ⟨hneg, hretry⟩)⟩
    · rw [if_neg hretry]
      refine ⟨_, rfl, iff_of_false Bool.false_ne_true ?_⟩
      rintro (hpos | ⟨-, h⟩)
      · omega
      · exact hretry h
  · rw [if_neg hneg]
    by_cases hzero : result = 0
    · subst hzero
      rw [if_pos rfl]
      refine ⟨_, rfl, iff_of_false Bool.false_ne_true ?_⟩
      rintro (hpos | ⟨hlt, -⟩)
      · omega
      · omega
    · rw [if_neg hzero, if_neg (by omega)]
      exact ⟨_, rfl, iff_of_true rfl (Or.inl (by omega))⟩

/-- `n` bytes of the request have been moved, and nothing else has changed but
the slots and the counters. -/
def MovedBy (call : IoUringCall) (r : IoUringRequest) (n : Nat) (s s' : IoUringState) : Prop :=
  n = 0 ∧ s'.data = s.data ∧ s'.moves = s.moves ∨
    0 < n ∧ s'.data = s.data.moved call.operation r.fileOffset r.position n ∧
      s'.moves = s.moves ++ [⟨r.fileOffset, r.position, n⟩]

theorem movedPositions_append {s s' : IoUringState} {m : IoUringMove}
    (h : s'.moves = s.moves ++ [m]) :
    s'.movedPositions = s.movedPositions ∪ Set.Ico m.position (m.position + m.count) := by
  ext x
  constructor
  · rintro ⟨m', hm', hx⟩
    rw [h, List.mem_append, List.mem_singleton] at hm'
    rcases hm' with hm' | rfl
    · exact Or.inl ⟨m', hm', hx⟩
    · exact Or.inr hx
  · rintro (⟨m', hm', hx⟩ | hx)
    · exact ⟨m', by rw [h]; exact List.mem_append_left _ hm', hx⟩
    · exact ⟨m, by rw [h]; exact List.mem_append_right _ (List.mem_singleton_self m), hx⟩

section Completion

variable {i n : Nat} {slot new : IoUringSlot} (hslot : s.slots[i]? = some slot)
  (hpos : 0 < slot.remaining) (hn : n ≤ slot.remaining)
include hslot hpos hn

variable (new) in
/-- The places and the data after `n` bytes of a slot's request. -/
theorem Placed.worked (h : call.Placed s) (h' : call.Flying s)
    (hmoved : call.MovedBy (call.request slot i) n s s')
    (hcan : 0 < n → s.data.CanMove call.operation slot.offset n)
    (hslots : s'.slots = s.slots.set i new) (hnext : s'.nextIndex = s.nextIndex)
    (hnew : new.piece = ⟨slot.baseIndex + n, slot.remaining - n⟩ ∨
      slot.remaining = n ∧ new.remaining = 0) : call.Placed s' := by
  have hpiece := IoUringState.pieces_getElem? hslot
  have hok := h'.slot i slot hslot
  have hplace := hok.place hpos
  have hbelow : slot.piece.start + slot.piece.size ≤ s.nextIndex := hok.le_next
  have hle : slot.baseIndex + n ≤ call.length := by
    have := hok.le_next
    have := h'.next_le
    omega
  have hpieces : s'.pieces = s.pieces.set i new.piece := by
    rw [IoUringState.pieces, hslots, IoUringState.pieces_set]
  -- the piece has lost its first `n` positions
  have hadvance : Pieces.unfinished s'.pieces s'.nextIndex call.length =
      Pieces.unfinished s.pieces s.nextIndex call.length \
        Set.Ico slot.baseIndex (slot.baseIndex + n) := by
    have hfront := @unfinished_advance _ _ _ _ call.length _ h.apart hpiece hn hbelow
    rw [hpieces, hnext]
    rcases hnew with hnew | ⟨hall, hnone⟩
    · rw [hnew]
      exact hfront
    · obtain ⟨hlt, -⟩ := List.getElem?_eq_some_iff.mp hpiece
      have hclear := @unfinished_clear _ _ _ new.piece s.nextIndex call.length
        (List.getElem?_set_self (a := Piece.mk (slot.baseIndex + n) (slot.remaining - n)) hlt)
        (show slot.remaining - n = 0 by omega) hnone
      rw [List.set_set] at hclear
      rw [hclear]
      exact hfront
  have hapart : Apart s'.pieces := by
    rw [hpieces]
    apply h.apart.shrink hpiece
    rcases hnew with hnew | ⟨-, hnone⟩
    · rw [hnew]
      exact advance_subset (p := slot.piece) hn
    · intro x hx
      rw [Piece.mem_positions] at hx
      have : x < new.baseIndex + new.remaining := hx.2
      have : new.baseIndex ≤ x := hx.1
      omega
  rcases hmoved with ⟨rfl, hdata, hmoves⟩ | ⟨hn', hdata, hmoves⟩
  · refine h.keep hdata hmoves hapart ?_
    rw [hadvance, Nat.add_zero, Set.Ico_self, Set.sdiff_empty]
  · have hposition : (call.request slot i).position = slot.baseIndex := by
      show slot.offset - call.offset = _
      omega
    rw [hposition] at hdata hmoves
    have hmoved := movedPositions_append hmoves
    refine ⟨hapart, ?_, ?_, ?_⟩
    · rw [hadvance, h.unfinished, hmoved, Set.sdiff_sdiff]
    · rw [hdata, hmoved]
      have hfile : (call.request slot i).fileOffset = call.offset + slot.baseIndex := hplace
      rw [hfile]
      refine h.filled.moved hle ?_
      rw [← hplace]
      exact hcan hn'
    · intro m hm
      rw [hmoves, List.mem_append, List.mem_singleton] at hm
      rcases hm with hm | rfl
      · exact h.moves m hm
      · exact ⟨hplace, hle⟩

omit hn in
/-- The slot has been moved completely, and is free again. -/
theorem Flying.released (h : call.Flying s) {prepared taken : List IoUringRequest}
    (hperm : (s.prepared ++ s.taken).Perm (call.request slot i :: (prepared ++ taken)))
    (hprepared : s'.prepared = prepared) (htaken : s'.taken = taken)
    (hslots : s'.slots = s.slots.set i {}) (hnext : s'.nextIndex = s.nextIndex)
    (hcount : s'.inFlight = s.inFlight - 1) : call.Flying s' := by
  have hflying := (h.slot i slot hslot).inFlight_iff.mpr hpos
  have hremove := (h.requests.perm hperm.symm).remove
  subst hprepared htaken
  refine ⟨h.accepted, ?_, ?_, ?_, ?_⟩
  · rw [hnext]
    exact h.next_le
  · have hset := @countP_set_add _ _ _ {} hslot
    have hcounted := h.counted
    rw [IoUringState.inFlightSlots] at hcounted
    rw [IoUringState.inFlightSlots, hslots, hcount]
    rw [hflying, Bool.toNat_true, Bool.toNat_false] at hset
    omega
  · rw [hslots, hnext]
    apply forall_slots_set h.slot
    exact ⟨Nat.zero_le _, ⟨fun h => (Bool.false_ne_true h).elim, fun h => absurd h (Nat.lt_irrefl 0)⟩,
      fun h => absurd h (Nat.lt_irrefl 0), fun h => absurd h (Nat.lt_irrefl 0)⟩
  · rw [hslots]
    exact hremove.1.set hremove.2

omit hn in
/-- What is left of the slot's piece is in flight again. -/
theorem Flying.resubmitted (h : call.Flying s) {prepared taken : List IoUringRequest}
    (hperm : (s.prepared ++ s.taken).Perm (call.request slot i :: (prepared ++ taken)))
    (hrest : n < slot.remaining)
    (hnew : new = { advanced n slot with
      submittedLength := slot.remaining - n
      inFlight := true })
    (hqueues : (s'.prepared ++ s'.taken).Perm (call.request new i :: (prepared ++ taken)))
    (hslots : s'.slots = s.slots.set i new) (hnext : s'.nextIndex = s.nextIndex)
    (hcount : s'.inFlight = s.inFlight) : call.Flying s' := by
  have hok := h.slot i slot hslot
  have hflying := hok.inFlight_iff.mpr hpos
  have hremove := (h.requests.perm hperm.symm).remove
  obtain ⟨hlt, -⟩ := List.getElem?_eq_some_iff.mp hslot
  have hon : new.inFlight = true := by rw [hnew]
  refine ⟨h.accepted, ?_, ?_, ?_, ?_⟩
  · rw [hnext]
    exact h.next_le
  · have hset := @countP_set_add _ _ _ new hslot
    have hcounted := h.counted
    rw [IoUringState.inFlightSlots] at hcounted
    rw [IoUringState.inFlightSlots, hslots, hcount]
    rw [hflying, hon] at hset
    omega
  · rw [hslots, hnext]
    apply forall_slots_set h.slot
    have hle := hok.le_next
    have hplace := hok.place hpos
    rw [hnew]
    refine ⟨?_, ⟨fun _ => ?_, fun _ => rfl⟩, fun _ => rfl, fun _ => ?_⟩
    · show slot.baseIndex + n + (slot.remaining - n) ≤ s.nextIndex
      omega
    · show 0 < slot.remaining - n
      omega
    · show slot.offset + n = call.offset + (slot.baseIndex + n)
      omega
  · rw [hslots]
    have hset : call.Outstanding (s.slots.set i new) (prepared ++ taken) := hremove.1.set hremove.2
    exact (hset.add hremove.2 (List.getElem?_set_self hlt) hon).perm hqueues

/-- From `handleCompletionResult` on, in the state `s₁` in which the kernel has
completed the slot's request. -/
theorem Sound.handle (h : call.Placed s) (h' : call.Flying s) {s₁ : IoUringState}
    (hslots : s₁.slots = s.slots) (hnext : s₁.nextIndex = s.nextIndex)
    (hcount : s₁.inFlight = s.inFlight)
    (hmoved : call.MovedBy (call.request slot i) n s s₁)
    (hperm : (s.prepared ++ s.taken).Perm (call.request slot i :: (s₁.prepared ++ s₁.taken)))
    (hcan : 0 < n → s.data.CanMove call.operation slot.offset n)
    (hresult : k.result.toNat = n) (hstep : call.handle k slot i s₁ = some s') :
    call.Sound s' ∧
      (¬(0 < k.result ∨ k.result < 0 ∧ isRetryError (-k.result) = true) → s'.Failed) := by
  have hok := h'.slot i slot hslot
  have hflying := hok.inFlight_iff.mpr hpos
  obtain ⟨status, heq, hstatus⟩ := @handleCompletionResult_eq call.operation k.result slot
    (by rw [hok.submitted hpos]; omega)
  rw [hresult] at heq
  rw [IoUringCall.handle, heq] at hstep
  rcases status with e | _
  · -- a hard error, or nothing moved
    cases hstep
    refine ⟨Sound.failed ?_ e, fun _ => ⟨e, rfl⟩⟩
    exact h.worked (advanced n slot) hslot hpos hn h' hmoved hcan (by rw [← hslots]) hnext
      (Or.inl rfl)
  · refine ⟨?_, fun hnot => absurd (hstatus.mp rfl) hnot⟩
    dsimp only at hstep
    split at hstep
    · rename_i hrest
      have hrest' : n < slot.remaining := by
        have : 0 < slot.remaining - n := hrest
        omega
      rw [resubmit, prepFileSqe] at hstep
      by_cases hsqe : k.hasSqe = true
      · rw [if_pos hsqe] at hstep
        dsimp only at hstep
        rcases hsubmit : IoUringState.submitPending k 1 _ with _ | ⟨e | _, s₂⟩
        · rw [hsubmit] at hstep
          cases hstep
        · rw [hsubmit] at hstep
          obtain ⟨prepared, taken, rfl, -⟩ := IoUringState.submitPending_eq hsubmit
          cases hstep
          apply Sound.failed
          exact h.worked { advanced n slot with
              submittedLength := slot.remaining - n, inFlight := true }
            hslot hpos hn h' hmoved hcan (by rw [← hslots]; rfl) hnext (Or.inl rfl)
        · rw [hsubmit] at hstep
          obtain ⟨prepared, taken, rfl, hqueues⟩ := IoUringState.submitPending_eq hsubmit
          cases hstep
          have hcounted := h'.counted
          have hsome : 0 < s.inFlightSlots :=
            List.countP_pos_iff.mpr ⟨slot, List.mem_of_getElem? hslot, hflying⟩
          apply Sound.of_flying _ _ IoUringPhase.noConfusion
          · exact h.worked { advanced n slot with
                submittedLength := slot.remaining - n, inFlight := true }
              hslot hpos hn h' hmoved hcan (by rw [← hslots]; rfl) hnext (Or.inl rfl)
          · refine h'.resubmitted hslot hpos hperm hrest' rfl (hqueues.trans ?_)
              (by rw [← hslots]; rfl) hnext ?_
            · show (s₁.prepared ++ [_] ++ s₁.taken).Perm _
              rw [List.append_assoc]
              exact List.perm_middle
            · show s₁.inFlight - 1 + 1 = s.inFlight
              omega
      · rw [if_neg hsqe] at hstep
        cases hstep
        apply Sound.failed
        exact h.worked { advanced n slot with submittedLength := slot.remaining - n }
          hslot hpos hn h' hmoved hcan (by rw [← hslots]; rfl) hnext (Or.inl rfl)
    · rename_i hrest
      have hall : slot.remaining = n := by
        have : ¬0 < slot.remaining - n := hrest
        omega
      cases hstep
      have hplaced : call.Placed { s₁ with
          slots := s₁.slots.set i {}, inFlight := s₁.inFlight - 1 } :=
        h.worked {} hslot hpos hn h' hmoved hcan (by rw [← hslots]) hnext (Or.inr ⟨hall, rfl⟩)
      have hreleased : call.Flying { s₁ with
          slots := s₁.slots.set i {}, inFlight := s₁.inFlight - 1 } :=
        h'.released hslot hpos hperm rfl rfl (by rw [← hslots]) hnext (by rw [← hcount])
      exact Sound.running hplaced hreleased IoUringPhase.noConfusion

end Completion

variable (call) in
/-- What a completion at the kernel leaves. -/
theorem complete_eq (index : Nat) (r : IoUringRequest) (result : Int) (s : IoUringState) :
    ∃ data moves, call.complete index r result s =
        { s with taken := s.taken.eraseIdx index, data := data, moves := moves } ∧
      call.MovedBy r result.toNat s (call.complete index r result s) := by
  rw [complete]
  dsimp only
  split
  · exact ⟨_, _, rfl, Or.inr ⟨by omega, rfl, rfl⟩⟩
  · exact ⟨_, _, rfl, Or.inl ⟨by omega, rfl, rfl⟩⟩

theorem Sound.wait (h : call.Placed s) (h' : call.Flying s) (hstep : call.wait k s = some s') :
    call.Sound s' ∧ (0 ≤ k.waitResult →
      ¬(0 < k.result ∨ k.result < 0 ∧ isRetryError (-k.result) = true) → s'.Failed) := by
  rw [IoUringCall.wait] at hstep
  split at hstep
  · rename_i hfails
    refine ⟨?_, fun hwaits => absurd hwaits (by omega)⟩
    split at hstep
    · cases hstep
      exact Sound.running h h' IoUringPhase.noConfusion
    · cases hstep
      exact Sound.failed h _
  · rcases htaken : s.taken[k.completes]? with _ | r
    · rw [htaken] at hstep
      cases hstep
    · rw [htaken] at hstep
      dsimp only at hstep
      split at hstep
      · rename_i hmay
        obtain ⟨hlt, hget⟩ := List.getElem?_eq_some_iff.mp htaken
        -- the request is the one its slot describes
        obtain ⟨i, slot, hslot, hflying, rfl⟩ := h'.requests.described r
          (List.mem_append_right _ (List.mem_of_getElem? htaken))
        have hok := h'.slot i slot hslot
        have hpos := hok.inFlight_iff.mp hflying
        have hn : k.result.toNat ≤ slot.remaining := by
          have hle : k.result.toNat ≤ slot.submittedLength % 2 ^ 32 := hmay.1
          rw [← hok.submitted hpos]
          exact hle.trans (Nat.mod_le _ _)
        obtain ⟨data, moves, hcomplete, hmoved⟩ :=
          complete_eq call k.completes (call.request slot i) k.result s
        have hperm : (s.prepared ++ s.taken).Perm
            (call.request slot i :: (s.prepared ++ s.taken.eraseIdx k.completes)) := by
          rw [← hget]
          apply (List.Perm.append_left _ (List.getElem_cons_eraseIdx_perm hlt).symm).trans
          exact List.perm_middle
        rw [dispatch, if_neg (show ¬(call.request slot i).userData = 0 from Nat.succ_ne_zero i)]
          at hstep
        have hsame : (call.complete k.completes (call.request slot i) k.result s).slots = s.slots := by
          rw [hcomplete]
        have hfound : (call.complete k.completes (call.request slot i) k.result s).slots[
            (call.request slot i).userData - 1]? = some slot := by
          rw [hsame]
          exact hslot
        rw [hfound] at hstep
        dsimp only at hstep
        rw [if_pos hflying] at hstep
        refine (Sound.handle hslot hpos hn h h' hsame ?_ ?_ hmoved ?_ ?_ rfl hstep).imp_right
          fun hfailed _ => hfailed
        · rw [hcomplete]
        · rw [hcomplete]
        · rw [hcomplete]
          exact hperm
        · intro hpositive
          exact hmay.2 (by omega)
      · cases hstep

/-! ### Runs -/

theorem accept_ok {initResult : Int} (h : call.accept initResult = .ok ()) :
    call.offset ≤ World.kMaxOffset := by
  rw [accept, bind_eq_ok] at h
  obtain ⟨_, hvalidate, -⟩ := h
  rw [validateOffset.eq_def, bind_eq_ok] at hvalidate
  obtain ⟨_, hoffset, -⟩ := hvalidate
  exact require_eq_ok.mp hoffset

theorem sound_begin (initResult : Int) : call.Sound (call.begin initResult) := by
  have hpieces : (call.begin initResult).pieces = List.replicate call.depth ⟨0, 0⟩ := by
    rw [IoUringState.pieces, begin, List.map_replicate]
    rfl
  have hnone : (call.begin initResult).movedPositions = ∅ := by
    ext x
    constructor
    · rintro ⟨m, hm, -⟩
      cases hm
    · exact fun h => h.elim
  refine ⟨⟨?_, ?_, ?_, fun m hm => by cases hm⟩, fun hrunning => ⟨?_, ?_, ?_, ?_, ?_⟩, ?_⟩
  · rw [hpieces]
    exact apart_replicate _ _
  · rw [hpieces, Pieces.unfinished, held_replicate, hnone, Set.empty_union, Set.sdiff_empty]
    rfl
  · rw [hnone]
    exact filled_begin
  · intro hpos
    by_contra hoffset
    apply hrunning
    rw [IoUringState.Failed, begin]
    dsimp only
    rw [if_neg (by omega)]
    rcases haccept : call.accept initResult with e | _
    · exact ⟨e, rfl⟩
    · exact absurd (accept_ok haccept) hoffset
  · exact Nat.zero_le _
  · show 0 = (List.replicate call.depth ({} : IoUringSlot)).countP (·.inFlight)
    rw [List.countP_replicate, if_neg Bool.false_ne_true]
  · intro i slot hslot
    have hmem : slot ∈ List.replicate call.depth ({} : IoUringSlot) := List.mem_of_getElem? hslot
    rw [List.eq_of_mem_replicate hmem]
    exact ⟨Nat.zero_le _, ⟨fun h => (Bool.false_ne_true h).elim, fun h => absurd h (Nat.lt_irrefl 0)⟩,
      fun h => absurd h (Nat.lt_irrefl 0), fun h => absurd h (Nat.lt_irrefl 0)⟩
  · exact ⟨fun r hr => (by cases hr), List.nodup_nil⟩
  · intro hphase
    refine ⟨?_, rfl⟩
    show call.length ≤ 0
    by_contra hpos
    rw [begin] at hphase
    dsimp only at hphase
    rw [if_neg (by omega)] at hphase
    rcases haccept : call.accept initResult with e | _
    · rw [haccept] at hphase
      cases hphase
    · rw [haccept] at hphase
      cases hphase

/-- **One step keeps the invariant**, and a completion that moves nothing and is
not to be retried ends the call with an error. -/
theorem Sound.step (h : call.Sound s) (hstep : call.step k s = some s') :
    call.Sound s' ∧ (s.phase = .wait → 0 ≤ k.waitResult →
      ¬(0 < k.result ∨ k.result < 0 ∧ isRetryError (-k.result) = true) → s'.Failed) := by
  have hrunning : ∀ {phase : IoUringPhase}, s.phase = phase →
      (∀ e, phase ≠ .finished (.error e)) → call.Flying s := by
    intro phase hphase hne
    apply h.flying
    rintro ⟨e, he⟩
    exact hne e (hphase.symm.trans he)
  rw [IoUringCall.step] at hstep
  rcases hphase : s.phase with _ | ⟨i, n⟩ | n | _ | status
  · have h' := hrunning hphase (fun e he => by cases he)
    rw [hphase] at hstep
    refine ⟨?_, fun hwait => by cases hwait⟩
    dsimp only at hstep
    split at hstep
    · cases hstep
      exact Sound.running h.placed h' IoUringPhase.noConfusion
    · rename_i hdone
      cases hstep
      refine ⟨h.placed.phase _, fun _ => h'.phase _, fun _ => ?_⟩
      show call.length ≤ s.nextIndex ∧ s.inFlight = 0
      omega
  · have h' := hrunning hphase (fun e he => by cases he)
    rw [hphase] at hstep
    cases hstep
    exact ⟨Sound.fill h.placed h' i n, fun hwait => by cases hwait⟩
  · have h' := hrunning hphase (fun e he => by cases he)
    rw [hphase] at hstep
    exact ⟨Sound.submit h.placed h' hstep, fun hwait => by cases hwait⟩
  · have h' := hrunning hphase (fun e he => by cases he)
    rw [hphase] at hstep
    obtain ⟨hsound, hfailed⟩ := Sound.wait h.placed h' hstep
    exact ⟨hsound, fun _ => hfailed⟩
  · rw [hphase] at hstep
    cases hstep

theorem runs_sound (h : call.runs.Reachable s) : call.Sound s := by
  apply h.invariant
  · rintro s ⟨initResult, rfl⟩
    exact sound_begin initResult
  · intro k s s' _ hs hstep
    exact (hs.step hstep).1

/-! ### The loop and the plain loop -/

variable (call)

/-- In every state of a run: no two slots cover a common byte, the counter is
right while the call has not failed, exactly what the slots hold and what has
not been handed out is still to be moved, and whatever has been moved went
between a byte of the file and its own place in the buffer. -/
structure Accounted (s : IoUringState) : Prop where
  apart : ∀ (i j : Nat) (a b : IoUringSlot), i ≠ j → s.slots[i]? = some a → s.slots[j]? = some b →
    ∀ x, ¬((a.baseIndex ≤ x ∧ x < a.baseIndex + a.remaining) ∧
      b.baseIndex ≤ x ∧ x < b.baseIndex + b.remaining)
  counted : ¬s.Failed → s.inFlight = s.inFlightSlots
  unmoved : ∀ x, (x < call.length ∧ x ∉ s.movedPositions) ↔
    (∃ slot ∈ s.slots, slot.baseIndex ≤ x ∧ x < slot.baseIndex + slot.remaining) ∨
      (s.nextIndex ≤ x ∧ x < call.length)
  place : ∀ m ∈ s.moves, m.fileOffset = call.offset + m.position ∧
    m.position + m.count ≤ call.length

/-- Every byte has been moved, and the file and the buffer are what every run of
the plain loop that returns ok leaves; there is such a run. -/
structure AgreesWithPosix (s : IoUringState) : Prop where
  all : ∀ x, x < call.length → x ∈ s.movedPositions
  data : ∀ results d, posixAtAll call.operation call.offset results call.data = some (.ok (), d) →
    s.data = d
  possible : ∃ results,
    posixAtAll call.operation call.offset results call.data = some (.ok (), s.data)

variable {call}

theorem Sound.accounted (h : call.Sound s) : call.Accounted s where
  apart := by
    rintro i j a b hij ha hb x ⟨hxa, hxb⟩
    exact h.placed.apart i j _ _ hij (IoUringState.pieces_getElem? ha)
      (IoUringState.pieces_getElem? hb) x hxa hxb
  counted hrunning := (h.flying hrunning).counted
  unmoved x := by
    have hx := Set.ext_iff.mp h.placed.unfinished x
    constructor
    · rintro ⟨hlt, hnot⟩
      rcases hx.mpr ⟨⟨Nat.zero_le x, hlt⟩, hnot⟩ with ⟨i, p, hp, hmem⟩ | hnext
      · obtain ⟨slot, hslot, rfl⟩ := IoUringState.exists_of_pieces hp
        exact Or.inl ⟨slot, List.mem_of_getElem? hslot, hmem⟩
      · exact Or.inr hnext
    · intro hopen
      have hopen' : x ∈ Pieces.unfinished s.pieces s.nextIndex call.length := by
        rcases hopen with ⟨slot, hslot, hmem⟩ | hnext
        · obtain ⟨i, hi⟩ := List.mem_iff_getElem?.mp hslot
          exact Or.inl ⟨i, _, IoUringState.pieces_getElem? hi, hmem⟩
        · exact Or.inr hnext
      have hleft := hx.mp hopen'
      exact ⟨hleft.1.2, hleft.2⟩
  place := h.placed.moves

/-- A call that has returned ok has nothing left in any slot. -/
theorem Sound.all_moved (h : call.Sound s) (hphase : s.phase = .finished (.ok ())) (x : Nat)
    (hx : x < call.length) : x ∈ s.movedPositions := by
  have hrunning : ¬s.Failed := by
    rintro ⟨e, he⟩
    rw [hphase] at he
    cases he
  have hflying := h.flying hrunning
  obtain ⟨hnext, hnone⟩ := h.done hphase
  by_contra hnot
  rcases (h.accounted.unmoved x).mp ⟨hx, hnot⟩ with ⟨slot, hslot, hmem⟩ | hopen
  · obtain ⟨i, hi⟩ := List.mem_iff_getElem?.mp hslot
    have hactive := (hflying.slot i slot hi).inFlight_iff.mpr (by omega)
    have hsome : 0 < s.inFlightSlots := List.countP_pos_iff.mpr ⟨slot, hslot, hactive⟩
    have hcounted := hflying.counted
    omega
  · omega

/-- A call with nothing to move returns at once. -/
theorem runs_empty (h : call.runs.Reachable s) (hempty : call.length = 0) : s.data = call.data := by
  have hboth : s.phase = .finished (.ok ()) ∧ s.data = call.data := by
    apply h.invariant (I := fun s => s.phase = .finished (.ok ()) ∧ s.data = call.data)
    · rintro s ⟨initResult, rfl⟩
      exact ⟨by rw [begin]; dsimp only; rw [if_pos hempty], rfl⟩
    · rintro k s s' _ ⟨hphase, -⟩ hstep
      have hnone : call.step k s = none := by rw [step, hphase]
      have hsome : call.step k s = some s' := hstep
      rw [hnone] at hsome
      cases hsome
  exact hboth.2

theorem agreesWithPosix (h : call.runs.Reachable s) (hphase : s.phase = .finished (.ok ())) :
    call.AgreesWithPosix s := by
  have hsound := runs_sound h
  have hall := hsound.all_moved hphase
  have haccepted := (hsound.flying (by rintro ⟨e, he⟩; rw [hphase] at he; cases he)).accepted
  have hdata : s.data = call.data.transferred call.operation call.offset ∧
      (call.data.buffer ≠ [] → call.data.CanMove call.operation call.offset call.length) := by
    by_cases hempty : call.data.buffer = []
    · refine ⟨?_, fun hne => absurd hempty hne⟩
      rw [runs_empty h (by rw [length, hempty]; rfl), FileData.transferred, if_pos hempty]
    · obtain ⟨hdata, hcan⟩ := hsound.placed.filled.all hall (List.length_pos_iff.mpr hempty)
      exact ⟨hdata, fun _ => hcan⟩
  refine ⟨hall, fun results d hposix => ?_, [.count call.length], ?_⟩
  · rw [hdata.1, posixAtAll_ok hposix]
  · rw [hdata.1]
    exact posixAtAll_single (fun hne => haccepted (List.length_pos_iff.mpr hne)) hdata.2

end IoUringCall

/-- **The io_uring loops do what the plain loops do**, whatever the kernel
chooses: every state of a run is accounted for, a call that returns ok has left
what the plain loop leaves, and a completion that moves nothing ends the call
with an error unless it is to be retried. -/
theorem ioUring_agrees_posix (call : IoUringCall) {s : IoUringState}
    (h : call.runs.Reachable s) :
    call.Accounted s ∧ (s.phase = .finished (.ok ()) → call.AgreesWithPosix s) ∧
      ∀ k s', call.step k s = some s' → s.phase = .wait → 0 ≤ k.waitResult →
        (k.result = 0 ∨ k.result < 0 ∧ isRetryError (-k.result) = false) → s'.Failed := by
  have hsound := IoUringCall.runs_sound h
  refine ⟨hsound.accounted, IoUringCall.agreesWithPosix h, ?_⟩
  intro k s' hstep hwait hwaited hresult
  apply (hsound.step hstep).2 hwait hwaited
  rintro (hpos | ⟨hneg, hretry⟩)
  · omega
  · rcases hresult with hzero | ⟨-, hhard⟩
    · omega
    · rw [hretry] at hhard
      cases hhard

/-- The state after these steps. -/
def IoUringCall.stepAll (call : IoUringCall) : List Kernel → IoUringState → Option IoUringState
  | [], s => some s
  | k :: ks, s => (call.step k s).bind (call.stepAll ks)

theorem IoUringCall.reachable_stepAll {call : IoUringCall} {ks : List Kernel} {s s' : IoUringState}
    (hs : call.runs.Reachable s) (h : call.stepAll ks s = some s') : call.runs.Reachable s' := by
  induction ks generalizing s with
  | nil =>
      cases h
      exact hs
  | cons k ks ih =>
      rw [stepAll, Option.bind_eq_some_iff] at h
      obtain ⟨s₁, hstep, hrest⟩ := h
      exact ih (.step hs hstep) hrest

/-- Five bytes into a file of four, through two slots. -/
def fiveByteWrite : IoUringCall := ioUringWriteAtAll 2 2 0 ⟨[9, 9, 9, 9], [1, 2, 3, 4, 5]⟩

/-- The second slot completes first, and in two parts; the first one is
interrupted once. -/
def scatteredCompletions : List Kernel :=
  [{}, {}, {}, {}, { submitResult := 2 }, { completes := 1, result := 1, submitResult := 1 },
    {}, {}, {}, { completes := 1, result := 1 },
    {}, {}, {}, { result := -4, submitResult := 1 },
    {}, {}, {}, { result := 3 }, {}]

def fiveByteWritten : IoUringState :=
  ((fiveByteWrite.stepAll scatteredCompletions (fiveByteWrite.begin 0)).getD (fiveByteWrite.begin 0))

theorem ioUring_agrees_posix_scattered :
    fiveByteWrite.runs.Reachable fiveByteWritten ∧
      fiveByteWritten.data.content = [9, 9, 1, 2, 3, 4, 5] ∧
      fiveByteWrite.Accounted fiveByteWritten ∧ fiveByteWrite.AgreesWithPosix fiveByteWritten :=
  have hrun : fiveByteWrite.runs.Reachable fiveByteWritten :=
    IoUringCall.reachable_stepAll (.initial ⟨0, rfl⟩)
      (show fiveByteWrite.stepAll scatteredCompletions (fiveByteWrite.begin 0) =
        some fiveByteWritten from rfl)
  ⟨hrun, rfl, (ioUring_agrees_posix fiveByteWrite hrun).1,
    (ioUring_agrees_posix fiveByteWrite hrun).2.1 rfl⟩

end GridFlux
