/-
GridFlux/Crc.lean

A library on bit-reflected cyclic redundancy checks over registers of any
width `w` and any polynomial `P` (given in reflected form).  It names nothing
of the transfer code.

The register is shifted right one bit at a time; a byte is xored into the low
end and shifted through.  Everything rests on two facts about one shift:

* it is linear over xor (`bitStep_xor`);
* it is injective when the top bit of `P` is set (`bitStep_injective`).

Main results: shifting by `n` bits a register whose low `n` bits are clear is
a plain shift (`bitSteps_shiftLeft`, `bitSteps_of_low_zero`), which is what
the byte table and the multi-byte instruction rest on; a change confined
to `w / 8` consecutive bytes is always detected (`update_ne_of_burst`); feeding
bit by bit and byte by byte is the same (`feedBits_eq`); and seen in a mirror
the shifts are the long division of polynomials (`reverse_divisionSteps`).
-/
import Mathlib.Data.BitVec
import Mathlib.Data.List.Basic
import Mathlib.Logic.Function.Basic

namespace ReflectedCrc

variable {w : Nat}

/-! ### One shift -/

/-- Shift the register right by one bit, reducing by `P` when a one drops out. -/
def bitStep (P v : BitVec w) : BitVec w :=
  if v.getLsbD 0 then (v >>> 1) ^^^ P else v >>> 1

/-- `n` shifts. -/
def bitSteps (P : BitVec w) : Nat → BitVec w → BitVec w
  | 0, v => v
  | n + 1, v => bitSteps P n (bitStep P v)

/-- Xor a byte into the low end of the register and shift it through. -/
def byteStep (P v : BitVec w) (b : UInt8) : BitVec w :=
  bitSteps P 8 (v ^^^ b.toBitVec.setWidth w)

/-- Feed a list of bytes. -/
def update (P : BitVec w) (v : BitVec w) (bytes : List UInt8) : BitVec w :=
  bytes.foldl (byteStep P) v

@[simp] theorem update_nil (P v : BitVec w) : update P v [] = v := rfl

@[simp] theorem update_cons (P v : BitVec w) (b : UInt8) (bytes : List UInt8) :
    update P v (b :: bytes) = update P (byteStep P v b) bytes := rfl

theorem update_append (P v : BitVec w) (l l' : List UInt8) :
    update P v (l ++ l') = update P (update P v l) l' :=
  List.foldl_append

/-! ### Linearity -/

theorem bitStep_xor (P x y : BitVec w) :
    bitStep P (x ^^^ y) = bitStep P x ^^^ bitStep P y := by
  simp only [bitStep, BitVec.getLsbD_xor, BitVec.ushiftRight_xor_distrib]
  rcases hx : x.getLsbD 0 with - | -
  · rcases hy : y.getLsbD 0 with - | -
    · simp
    · simp [BitVec.xor_assoc]
  · rcases hy : y.getLsbD 0 with - | -
    · simp only [Bool.bne_false, if_true, Bool.false_eq_true, if_false]
      rw [BitVec.xor_assoc, BitVec.xor_comm (y >>> 1), BitVec.xor_assoc]
    · simp only [bne_self_eq_false, Bool.false_eq_true, if_false, if_true]
      rw [BitVec.xor_assoc, BitVec.xor_comm P, BitVec.xor_assoc (y >>> 1), BitVec.xor_self,
        BitVec.xor_zero]

theorem bitSteps_xor (P x y : BitVec w) (n : Nat) :
    bitSteps P n (x ^^^ y) = bitSteps P n x ^^^ bitSteps P n y := by
  induction n generalizing x y with
  | zero => rfl
  | succ n ih => simp only [bitSteps, bitStep_xor, ih]

@[simp] theorem bitStep_zero (P : BitVec w) : bitStep P 0#w = 0#w := by
  simp [bitStep]

@[simp] theorem bitSteps_zero (P : BitVec w) (n : Nat) : bitSteps P n 0#w = 0#w := by
  induction n with
  | zero => rfl
  | succ n ih => simp only [bitSteps, bitStep_zero, ih]

theorem bitSteps_add (P v : BitVec w) (m n : Nat) :
    bitSteps P (m + n) v = bitSteps P n (bitSteps P m v) := by
  induction m generalizing v with
  | zero => simp [bitSteps]
  | succ m ih => rw [Nat.succ_add, bitSteps, bitSteps, ih]

/-! ### Injectivity -/

/-- The only register that shifts to zero is zero: a reduction would leave the
top bit of `P` behind. -/
theorem eq_zero_of_bitStep {P v : BitVec w} (hP : P.msb = true) (h : bitStep P v = 0#w) :
    v = 0#w := by
  rcases w with - | w
  · exact Subsingleton.elim _ _
  rcases hv : v.getLsbD 0 with - | -
  · have h1 : v >>> 1 = 0#(w + 1) := by
      simpa only [bitStep, hv, Bool.false_eq_true, if_false] using h
    refine BitVec.eq_of_getLsbD_eq fun i hi => ?_
    rcases i with - | i
    · simpa using hv
    · have := congrArg (fun u => u.getLsbD i) h1
      simpa [Nat.add_comm] using this
  · have h1 : (v >>> 1) ^^^ P = 0#(w + 1) := by
      simpa only [bitStep, hv, if_true] using h
    have hmsb := congrArg BitVec.msb h1
    rw [BitVec.msb_xor, hP] at hmsb
    simp [BitVec.msb_ushiftRight] at hmsb

theorem bitStep_injective {P : BitVec w} (hP : P.msb = true) :
    Function.Injective (bitStep P) := by
  intro x y h
  have hxor : bitStep P (x ^^^ y) = 0#w := by
    rw [bitStep_xor, h, BitVec.xor_self]
  exact BitVec.xor_eq_zero_iff.mp (eq_zero_of_bitStep hP hxor)

theorem bitSteps_injective {P : BitVec w} (hP : P.msb = true) (n : Nat) :
    Function.Injective (bitSteps P n) := by
  induction n with
  | zero => exact fun _ _ h => h
  | succ n ih => exact fun _ _ h => bitStep_injective hP (ih h)

theorem byteStep_injective {P : BitVec w} (hP : P.msb = true) (b : UInt8) :
    Function.Injective fun v => byteStep P v b := by
  intro x y h
  exact (BitVec.xor_left_inj _).mp (bitSteps_injective hP 8 h)

/-- Two different registers stay different whatever is fed to both. -/
theorem update_injective {P : BitVec w} (hP : P.msb = true) (bytes : List UInt8) :
    Function.Injective fun v => update P v bytes := by
  induction bytes with
  | nil => exact fun _ _ h => h
  | cons b bytes ih => exact fun _ _ h => byteStep_injective hP b (ih h)

/-! ### Clear low bits pass through unreduced -/

theorem bitSteps_of_low_zero (P v : BitVec w) (n : Nat)
    (h : ∀ i < n, v.getLsbD i = false) : bitSteps P n v = v >>> n := by
  induction n generalizing v with
  | zero => simp [bitSteps]
  | succ n ih =>
      have hstep : bitStep P v = v >>> 1 := by simp [bitStep, h 0 (Nat.succ_pos n)]
      rw [bitSteps, hstep, ih]
      · rw [← BitVec.shiftRight_add, Nat.add_comm]
      · intro i hi
        simpa [Nat.add_comm] using h (i + 1) (by omega)

/-- Shifting up first and then `n` bits through the register changes nothing. -/
theorem bitSteps_shiftLeft (P v : BitVec w) (n : Nat) (h : v.toNat * 2 ^ n < 2 ^ w) :
    bitSteps P n (v <<< n) = v := by
  rw [bitSteps_of_low_zero]
  · apply BitVec.eq_of_toNat_eq
    rw [BitVec.toNat_ushiftRight, BitVec.toNat_shiftLeft, Nat.shiftLeft_eq,
      Nat.mod_eq_of_lt h, Nat.shiftRight_eq_div_pow, Nat.mul_div_cancel _ (Nat.two_pow_pos n)]
  · intro i hi
    simp [BitVec.getLsbD_shiftLeft, hi]

/-! ### Burst detection -/

/-- A zero register after `n` bytes can only come from `n` bytes' worth of low
bits. -/
theorem toNat_lt_of_update_eq_zero {P : BitVec w} (hP : P.msb = true) {v : BitVec w}
    {bytes : List UInt8} (hlen : 8 * bytes.length ≤ w) (h : update P v bytes = 0#w) :
    v.toNat < 2 ^ (8 * bytes.length) := by
  induction bytes generalizing v with
  | nil =>
      simp only [update_nil] at h
      simp [h]
  | cons b bytes ih =>
      simp only [List.length_cons] at hlen
      have hsmall : (byteStep P v b).toNat < 2 ^ (8 * bytes.length) :=
        ih (by omega) h
      have hshift : (byteStep P v b).toNat * 2 ^ 8 < 2 ^ (8 * bytes.length + 8) := by
        rw [pow_add]
        exact Nat.mul_lt_mul_of_pos_right hsmall (by decide)
      have hw : 2 ^ (8 * bytes.length + 8) ≤ 2 ^ w := Nat.pow_le_pow_right (by decide) hlen
      have hback : v ^^^ b.toBitVec.setWidth w = byteStep P v b <<< 8 :=
        bitSteps_injective hP 8 (bitSteps_shiftLeft P _ 8 (hshift.trans_le hw)).symm
      have hv : v = (byteStep P v b <<< 8) ^^^ b.toBitVec.setWidth w := by
        rw [← hback, BitVec.xor_assoc, BitVec.xor_self, BitVec.xor_zero]
      have hb : (b.toBitVec.setWidth w).toNat < 2 ^ (8 * bytes.length + 8) := by
        have h8 : b.toBitVec.toNat < 2 ^ 8 := b.toBitVec.isLt
        have hle : 2 ^ 8 ≤ 2 ^ (8 * bytes.length + 8) :=
          Nat.pow_le_pow_right (by decide) (by omega)
        rw [BitVec.toNat_setWidth]
        exact (Nat.mod_le _ _).trans_lt (h8.trans_le hle)
      rw [hv, BitVec.toNat_xor, List.length_cons, Nat.mul_succ]
      refine Nat.xor_lt_two_pow ?_ hb
      rw [BitVec.toNat_shiftLeft, Nat.shiftLeft_eq]
      exact (Nat.mod_le _ _).trans_lt hshift

/-- Fed to a zero register, few enough bytes give zero only when all are zero. -/
theorem all_zero_of_update_eq_zero {P : BitVec w} (hP : P.msb = true)
    {bytes : List UInt8} (hlen : 8 * bytes.length ≤ w) (h : update P 0#w bytes = 0#w) :
    ∀ b ∈ bytes, b = 0 := by
  induction bytes with
  | nil => simp
  | cons b bytes ih =>
      simp only [List.length_cons] at hlen
      have hsmall := toNat_lt_of_update_eq_zero hP (v := byteStep P 0#w b) (by omega) h
      have hw : 2 ^ (8 * bytes.length) * 2 ^ 8 ≤ 2 ^ w := by
        rw [← pow_add]
        exact Nat.pow_le_pow_right (by decide) (by omega)
      have hfit : (byteStep P 0#w b).toNat * 2 ^ 8 < 2 ^ w :=
        (Nat.mul_lt_mul_of_pos_right hsmall (by decide)).trans_le hw
      have hback : 0#w ^^^ b.toBitVec.setWidth w = byteStep P 0#w b <<< 8 :=
        bitSteps_injective hP 8 (bitSteps_shiftLeft P _ 8 hfit).symm
      -- the byte equals a register with eight clear low bits
      have hzero : b.toBitVec = 0#8 := by
        refine BitVec.eq_of_getLsbD_eq fun i hi => ?_
        have hi' := congrArg (fun u => u.getLsbD i) hback
        have hiw : i < w := by omega
        simpa [hiw, hi] using hi'
      have hb : b = 0 := UInt8.toBitVec_inj.mp hzero
      have hstep : byteStep P 0#w b = 0#w := by simp [byteStep, hb]
      rw [update_cons, hstep] at h
      intro c hc
      rcases List.mem_cons.mp hc with rfl | hc
      · exact hb
      · exact ih (by omega) h c hc

/-- Two runs over lists of one length differ by the run over their bytewise
difference. -/
theorem update_xor_update (P : BitVec w) {x y : List UInt8} (hlen : x.length = y.length)
    (u v : BitVec w) :
    update P u x ^^^ update P v y = update P (u ^^^ v) (List.zipWith (· ^^^ ·) x y) := by
  induction x generalizing y u v with
  | nil =>
      obtain rfl := List.length_eq_zero_iff.mp hlen.symm
      rfl
  | cons a x ih =>
      rcases y with - | ⟨b, y⟩
      · simp at hlen
      · have hstep : byteStep P u a ^^^ byteStep P v b = byteStep P (u ^^^ v) (a ^^^ b) := by
          simp only [byteStep, ← bitSteps_xor, UInt8.toBitVec_xor, BitVec.setWidth_xor]
          refine congrArg (bitSteps P 8) ?_
          ac_rfl
        simp only [update_cons, List.zipWith_cons_cons]
        rw [ih (by simpa using hlen), hstep]

/-- **Burst detection**: changing at most `w / 8` consecutive bytes changes the
register, whatever surrounds them. -/
theorem update_ne_of_burst {P : BitVec w} (hP : P.msb = true) {a b x y : List UInt8}
    (hlen : x.length = y.length) (hw : 8 * x.length ≤ w) (hne : x ≠ y) (v : BitVec w) :
    update P v (a ++ x ++ b) ≠ update P v (a ++ y ++ b) := by
  intro h
  rw [update_append, update_append, update_append P v (a ++ y), update_append P v a y] at h
  have hmid : update P (update P v a) x = update P (update P v a) y :=
    update_injective hP b h
  have hzero : update P 0#w (List.zipWith (· ^^^ ·) x y) = 0#w := by
    rw [← BitVec.xor_self (x := update P v a), ← update_xor_update P hlen, hmid,
      BitVec.xor_self, BitVec.xor_self]
  have hall := all_zero_of_update_eq_zero hP (by simpa [← hlen] using hw) hzero
  refine hne (List.ext_getElem hlen fun i hi hi' => ?_)
  have hmem := hall (x[i] ^^^ y[i]) (by
    rw [List.mem_iff_getElem]
    exact ⟨i, by simpa [← hlen] using hi, by simp⟩)
  exact UInt8.xor_eq_zero_iff.mp hmem

/-! ### Bit by bit -/

/-- Feed one bit: xor it into the low end and shift. -/
def feedBit (P v : BitVec w) (bit : Bool) : BitVec w :=
  bitStep P (v ^^^ (BitVec.ofBool bit).setWidth w)

/-- The bits of a byte in the order of a reflected check, the lowest first. -/
def bitsOf (b : UInt8) : List Bool := (List.range 8).map b.toBitVec.getLsbD

/-- Feed a list of bytes bit by bit. -/
def feedBits (P v : BitVec w) (bytes : List UInt8) : BitVec w :=
  (bytes.flatMap bitsOf).foldl (feedBit P) v

/-- A register that is the sum of its lowest bit and the others. -/
theorem bitStep_xor_low (P v b : BitVec w) :
    bitStep P (v ^^^ b) = feedBit P v (b.getLsbD 0) ^^^ (b >>> 1) := by
  have hbit : ∀ bit : Bool, bitStep P ((BitVec.ofBool bit).setWidth w) =
      if bit ∧ 0 < w then P else 0#w := by
    intro bit
    have hshift : ((BitVec.ofBool bit).setWidth w) >>> 1 = 0#w := by
      refine BitVec.eq_of_getLsbD_eq fun i hi => ?_
      rw [BitVec.getLsbD_ushiftRight, BitVec.getLsbD_setWidth,
        BitVec.getLsbD_of_ge _ _ (Nat.le_add_right 1 i)]
      simp
    have hlow : ((BitVec.ofBool bit).setWidth w).getLsbD 0 = (bit && decide (0 < w)) := by
      rw [BitVec.getLsbD_setWidth]
      cases bit <;> simp [Bool.and_comm]
    rw [bitStep, hlow, hshift]
    by_cases h : bit ∧ 0 < w
    · simp [h]
    · simp only [Bool.and_eq_true, decide_eq_true_eq, h, if_false]
  have hb : bitStep P b = (if b.getLsbD 0 ∧ 0 < w then P else 0#w) ^^^ (b >>> 1) := by
    rw [bitStep]
    by_cases hlow : b.getLsbD 0 = true
    · have hw : 0 < w := by
        by_contra hw
        obtain rfl : w = 0 := Nat.eq_zero_of_not_pos hw
        simp at hlow
      rw [if_pos hlow, if_pos ⟨hlow, hw⟩, BitVec.xor_comm]
    · rw [if_neg hlow, if_neg fun h => hlow h.1, BitVec.zero_xor]
  rw [feedBit, bitStep_xor, bitStep_xor, hb, hbit, BitVec.xor_assoc]

/-- Feeding `n` bits one by one is xoring them in and shifting `n` times. -/
theorem foldl_feedBit (P v b : BitVec w) {n : Nat} (h : b.toNat < 2 ^ n) :
    ((List.range n).map b.getLsbD).foldl (feedBit P) v = bitSteps P n (v ^^^ b) := by
  induction n generalizing v b with
  | zero =>
      obtain rfl : b = 0#w := BitVec.eq_of_toNat_eq (by simpa using h)
      rw [BitVec.xor_zero]
      rfl
  | succ n ih =>
      have hshift : (b >>> 1).toNat < 2 ^ n := by
        rw [BitVec.toNat_ushiftRight, Nat.shiftRight_eq_div_pow, pow_one]
        exact Nat.div_lt_of_lt_mul (by rwa [pow_succ'] at h)
      have hrest : ((List.range n).map Nat.succ).map b.getLsbD =
          (List.range n).map (b >>> 1).getLsbD := by
        rw [List.map_map]
        refine List.map_congr_left fun i _ => ?_
        rw [BitVec.getLsbD_ushiftRight, Nat.add_comm]
        rfl
      rw [List.range_succ_eq_map, List.map_cons, List.foldl_cons, hrest, ih _ _ hshift, bitSteps,
        bitStep_xor_low]

theorem foldl_bitsOf (hw : 8 ≤ w) (P v : BitVec w) (b : UInt8) :
    (bitsOf b).foldl (feedBit P) v = byteStep P v b := by
  have hlt : (b.toBitVec.setWidth w).toNat < 2 ^ 8 := by
    rw [BitVec.toNat_setWidth]
    exact (Nat.mod_le _ _).trans_lt b.toBitVec.isLt
  have hbits : bitsOf b = (List.range 8).map (b.toBitVec.setWidth w).getLsbD := by
    refine List.map_congr_left fun i hi => ?_
    rw [BitVec.getLsbD_setWidth, decide_eq_true (by have := List.mem_range.mp hi; omega),
      Bool.true_and]
  rw [hbits, foldl_feedBit P v _ hlt, byteStep]

/-- **Bit by bit and byte by byte** give the same register. -/
theorem feedBits_eq (hw : 8 ≤ w) (P v : BitVec w) (bytes : List UInt8) :
    feedBits P v bytes = update P v bytes := by
  induction bytes generalizing v with
  | nil => rfl
  | cons b bytes ih =>
      rw [feedBits, List.flatMap_cons, List.foldl_append, foldl_bitsOf hw, update_cons, ← ih]
      rfl

/-! ### The width of the register -/

/-- A wider register does not matter: its upper bits stay clear. -/
theorem bitSteps_setWidth_of_le {w' : Nat} (hw : w ≤ w') (P v : BitVec w) (n : Nat) :
    bitSteps (P.setWidth w') n (v.setWidth w') = (bitSteps P n v).setWidth w' := by
  have hshift : ∀ u : BitVec w, (u.setWidth w') >>> 1 = (u >>> 1).setWidth w' := by
    intro u
    refine BitVec.eq_of_getLsbD_eq fun i hi => ?_
    rw [BitVec.getLsbD_ushiftRight, BitVec.getLsbD_setWidth, BitVec.getLsbD_setWidth,
      BitVec.getLsbD_ushiftRight, decide_eq_true hi, Bool.true_and]
    by_cases h : 1 + i < w'
    · rw [decide_eq_true h, Bool.true_and]
    · rw [BitVec.getLsbD_of_ge u _ (by omega), Bool.and_false]
  induction n generalizing v with
  | zero => rfl
  | succ n ih =>
      rw [bitSteps, bitSteps, ← ih]
      congr 1
      have hlow : (v.setWidth w').getLsbD 0 = v.getLsbD 0 := by
        rw [BitVec.getLsbD_setWidth]
        by_cases h : 0 < w'
        · rw [decide_eq_true h, Bool.true_and]
        · rw [BitVec.getLsbD_of_ge v _ (by omega), Bool.and_false]
      rw [bitStep, bitStep, hlow, hshift]
      cases v.getLsbD 0 with
      | true => rw [if_pos rfl, if_pos rfl, BitVec.setWidth_xor]
      | false => rfl

/-- Each shift drops a bit, until the register is no longer than `P`. -/
theorem toNat_bitSteps_lt {P v : BitVec w} {k n : Nat} (hP : P.toNat < 2 ^ k)
    (hv : v.toNat < 2 ^ (k + n)) : (bitSteps P n v).toNat < 2 ^ k := by
  induction n generalizing v with
  | zero => exact hv
  | succ n ih =>
      have hshift : (v >>> 1).toNat < 2 ^ (k + n) := by
        rw [BitVec.toNat_ushiftRight, Nat.shiftRight_eq_div_pow, pow_one]
        exact Nat.div_lt_of_lt_mul (by rwa [← pow_succ', Nat.add_assoc])
      apply ih
      rw [bitStep]
      split
      · rw [BitVec.toNat_xor]
        exact Nat.xor_lt_two_pow hshift (hP.trans_le (Nat.pow_le_pow_right (by decide) (by omega)))
      · exact hshift

/-! ### Long division

The register is a remainder of polynomials over the field with two elements,
written lowest coefficient first.  Written the other way round, one shift is one
step of long division. -/

/-- One step of the division by `G`, which is aligned with the top: subtract it
if the highest coefficient is there, and go on to the next one. -/
def divisionStep (G v : BitVec w) : BitVec w := (if v.msb then v ^^^ G else v) <<< 1

def divisionSteps (G : BitVec w) : Nat → BitVec w → BitVec w
  | 0, v => v
  | n + 1, v => divisionSteps G n (divisionStep G v)

theorem reverse_xor (x y : BitVec w) : (x ^^^ y).reverse = x.reverse ^^^ y.reverse := by
  refine BitVec.eq_of_getLsbD_eq fun i hi => ?_
  rw [BitVec.getLsbD_xor, BitVec.getLsbD_reverse, BitVec.getLsbD_reverse, BitVec.getLsbD_reverse,
    BitVec.getMsbD_xor]

theorem reverse_shiftLeft (x : BitVec w) (n : Nat) : (x <<< n).reverse = x.reverse >>> n := by
  refine BitVec.eq_of_getLsbD_eq fun i hi => ?_
  rw [BitVec.getLsbD_ushiftRight, BitVec.getLsbD_reverse, BitVec.getLsbD_reverse,
    BitVec.getMsbD_shiftLeft, Nat.add_comm]

theorem reverse_divisionStep (G v : BitVec w) :
    (divisionStep G v).reverse = bitStep (G.reverse >>> 1) v.reverse := by
  have hlow : v.reverse.getLsbD 0 = v.msb := by
    rw [BitVec.getLsbD_reverse, BitVec.msb]
  rw [divisionStep, reverse_shiftLeft, bitStep, hlow]
  cases v.msb with
  | true => rw [if_pos rfl, if_pos rfl, reverse_xor, BitVec.ushiftRight_xor_distrib]
  | false => rfl

/-- **Long division is shifting**, seen in a mirror. -/
theorem reverse_divisionSteps (G v : BitVec w) (n : Nat) :
    (divisionSteps G n v).reverse = bitSteps (G.reverse >>> 1) n v.reverse := by
  induction n generalizing v with
  | zero => rfl
  | succ n ih => rw [divisionSteps, ih, reverse_divisionStep, bitSteps]

end ReflectedCrc
