/-
GridFlux/Checksum.lean

`checksum::crc32c*` and `checksum::ChecksumComputer`.

Three ways of computing CRC32C are modelled as the code has them: the byte
table, the eight-byte hardware loop with its tail (the two SSE4.2 intrinsics
follow their documented meaning, polynomial division of the reflected
operand), and the incremental computer that picks a backend.  Whether the
hardware path exists depends on the host, so it is a parameter
`crc32cHardwareAvailable`.

Main results: every backend on every host computes the same register
(`crc32cUpdate_eq`), a computer fed piecewise computes the checksum of the
whole (`Fed.finalize`), changing one to four consecutive bytes changes the
checksum (`crc32c_ne_of_burst`), and the table, the hardware loop and the
computer all give the check computed bit by bit (`crc32c_computations_agree`).
-/
import GridFlux.Common
import GridFlux.Crc

namespace GridFlux

open ReflectedCrc

/-! ### Algorithms and backends -/

inductive ChecksumAlgorithm
  | none
  | crc32c
deriving DecidableEq, Repr

inductive ChecksumBackend
  | auto
  | software
  | hardware
deriving DecidableEq, Repr

structure ChecksumValue where
  algorithm : ChecksumAlgorithm
  value : BitVec 32
deriving DecidableEq, Repr

def checksumAlgorithmName : ChecksumAlgorithm → Bytes
  | .none => ascii "none"
  | .crc32c => ascii "crc32c"

def parseChecksumAlgorithm (text : Bytes) : Except Status ChecksumAlgorithm :=
  if text = ascii "none" then .ok .none
  else if text = ascii "crc32c" then .ok .crc32c
  else .error (.invalidArgument (ascii "unsupported checksum algorithm: " ++ text))

@[simp] theorem parseChecksumAlgorithm_name (algorithm : ChecksumAlgorithm) :
    parseChecksumAlgorithm (checksumAlgorithmName algorithm) = .ok algorithm := by
  rcases algorithm with - | -
  · rfl
  · rfl

def resolveChecksumBackend (crc32cHardwareAvailable : Bool) (algorithm : ChecksumAlgorithm)
    (requested : ChecksumBackend) : Except Status ChecksumBackend :=
  match algorithm with
  | .none => .ok .software
  | .crc32c =>
      match requested with
      | .software => .ok .software
      | .hardware =>
          if crc32cHardwareAvailable then .ok .hardware
          else .error (.runtimeError (ascii "CRC32C hardware backend is not available"))
      | .auto => .ok (if crc32cHardwareAvailable then .hardware else .software)

/-! ### The byte table -/

def kCrc32cPolynomial : BitVec 32 := 0x82F63B78#32

theorem msb_kCrc32cPolynomial : kCrc32cPolynomial.msb = true := by decide

/-- `makeTable`: entry `index` is `index` shifted through eight bits. -/
def kCrc32cTable : List (BitVec 32) :=
  (List.range 256).map fun index => bitSteps kCrc32cPolynomial 8 (BitVec.ofNat 32 index)

def crc32cInitialState : BitVec 32 := 0xFFFFFFFF#32

def crc32cFinalize (state : BitVec 32) : BitVec 32 := state ^^^ 0xFFFFFFFF#32

/-- One round of `crc32cUpdateSoftware`'s loop. -/
def tableStep (value : BitVec 32) (byte : UInt8) : BitVec 32 :=
  kCrc32cTable.getD ((value ^^^ byte.toBitVec.setWidth 32) &&& 0xFF#32).toNat 0#32 ^^^
    (value >>> 8)

def crc32cUpdateSoftware (state : BitVec 32) (data : Bytes) : BitVec 32 :=
  data.foldl tableStep state

theorem kCrc32cTable_getD {index : Nat} (h : index < 256) :
    kCrc32cTable.getD index 0#32 = bitSteps kCrc32cPolynomial 8 (BitVec.ofNat 32 index) := by
  have hlen : index < kCrc32cTable.length := by simpa [kCrc32cTable] using h
  rw [List.getD_eq_getElem?_getD, List.getElem?_eq_getElem hlen]
  simp [kCrc32cTable]

/-- One table lookup is eight shifts. -/
theorem tableStep_eq (value : BitVec 32) (byte : UInt8) :
    tableStep value byte = byteStep kCrc32cPolynomial value byte := by
  have hmask : ∀ i, (0xFF#32).getLsbD i = decide (i < 8) := by
    intro i
    have : (0xFF#32) = (BitVec.allOnes 8).setWidth 32 := by decide
    rw [this]
    simp only [BitVec.getLsbD_setWidth, BitVec.getLsbD_allOnes]
    by_cases hi : i < 8
    · simp [hi]
      omega
    · simp [hi]
  -- the byte meets the low half only; the high half passes through unreduced
  have hsplit : value ^^^ byte.toBitVec.setWidth 32 =
      ((value ^^^ byte.toBitVec.setWidth 32) &&& 0xFF#32) ^^^ ((value >>> 8) <<< 8) := by
    refine BitVec.eq_of_getLsbD_eq fun i hi => ?_
    simp only [BitVec.getLsbD_xor, BitVec.getLsbD_and, hmask, BitVec.getLsbD_setWidth,
      BitVec.getLsbD_shiftLeft, BitVec.getLsbD_ushiftRight]
    by_cases h8 : i < 8
    · simp [h8]
    · have hb : byte.toBitVec.getLsbD i = false := BitVec.getLsbD_of_ge _ _ (by omega)
      have hback : 8 + (i - 8) = i := by omega
      simp [h8, hb, hi, hback]
  have hindex : ((value ^^^ byte.toBitVec.setWidth 32) &&& 0xFF#32).toNat < 256 := by
    rw [BitVec.toNat_and]
    exact Nat.and_lt_two_pow _ (by decide : (0xFF#32).toNat < 2 ^ 8)
  have hhigh : (value >>> 8).toNat * 2 ^ 8 < 2 ^ 32 := by
    rw [BitVec.toNat_ushiftRight, Nat.shiftRight_eq_div_pow]
    have := value.isLt
    omega
  rw [tableStep, kCrc32cTable_getD hindex, BitVec.ofNat_toNat, BitVec.setWidth_eq, byteStep]
  conv_rhs => rw [hsplit, bitSteps_xor, bitSteps_shiftLeft _ _ _ hhigh]

theorem crc32cUpdateSoftware_eq (state : BitVec 32) (data : Bytes) :
    crc32cUpdateSoftware state data = update kCrc32cPolynomial state data := by
  rw [crc32cUpdateSoftware, update]
  congr 1
  funext value byte
  exact tableStep_eq value byte

/-! ### The hardware loop -/

/-- `_mm_crc32_u8`. -/
def mmCrc32U8 (crc : BitVec 32) (value : UInt8) : BitVec 32 :=
  byteStep kCrc32cPolynomial crc value

/-- `_mm_crc32_u64`: the low half of `crc` is folded into the operand and all
sixty-four bits are divided out; the result is zero-extended. -/
def mmCrc32U64 (crc value : BitVec 64) : BitVec 64 :=
  bitSteps (kCrc32cPolynomial.setWidth 64) 64 ((crc.setWidth 32).setWidth 64 ^^^ value)

/-- The little-endian word at the head of the data. -/
def leWord : Bytes → BitVec 64
  | [] => 0#64
  | b :: rest => b.toBitVec.setWidth 64 ^^^ (leWord rest <<< 8)

/-- The eight-byte loop: the register and the tail it leaves. -/
def hardwareWords (crc : BitVec 64) : Bytes → BitVec 64 × Bytes
  | b0 :: b1 :: b2 :: b3 :: b4 :: b5 :: b6 :: b7 :: rest =>
      hardwareWords (mmCrc32U64 crc (leWord [b0, b1, b2, b3, b4, b5, b6, b7])) rest
  | data => (crc, data)

def crc32cUpdateHardware (crc32cHardwareAvailable : Bool) (state : BitVec 32)
    (data : Bytes) : BitVec 32 :=
  if crc32cHardwareAvailable then
    let words := hardwareWords (state.setWidth 64) data
    words.2.foldl mmCrc32U8 (words.1.setWidth 32)
  else crc32cUpdateSoftware state data

def crc32cUpdate (crc32cHardwareAvailable : Bool) (state : BitVec 32) (data : Bytes) :
    ChecksumBackend → BitVec 32
  | .hardware => crc32cUpdateHardware crc32cHardwareAvailable state data
  | .auto =>
      if crc32cHardwareAvailable then crc32cUpdateHardware crc32cHardwareAvailable state data
      else crc32cUpdateSoftware state data
  | .software => crc32cUpdateSoftware state data

theorem setWidth_back (v : BitVec 32) : (v.setWidth 64).setWidth 32 = v := by
  apply BitVec.eq_of_toNat_eq
  simp only [BitVec.toNat_setWidth]
  have := v.isLt
  omega

theorem leWord_lt (bytes : Bytes) (h : bytes.length ≤ 8) :
    (leWord bytes).toNat < 2 ^ (8 * bytes.length) := by
  induction bytes with
  | nil => simp [leWord]
  | cons b bytes ih =>
      simp only [List.length_cons] at h ⊢
      have ih' := ih (by omega)
      rw [leWord, BitVec.toNat_xor, Nat.mul_succ]
      refine Nat.xor_lt_two_pow ?_ ?_
      · have hb : b.toBitVec.toNat < 2 ^ 8 := b.toBitVec.isLt
        rw [BitVec.toNat_setWidth]
        exact ((Nat.mod_le _ _).trans_lt hb).trans_le
          (Nat.pow_le_pow_right (by decide) (by omega))
      · rw [BitVec.toNat_shiftLeft, Nat.shiftLeft_eq, pow_add]
        exact (Nat.mod_le _ _).trans_lt (Nat.mul_lt_mul_of_pos_right ih' (by decide))

/-- Dividing out a little-endian word is feeding its bytes one by one. -/
theorem bitSteps_leWord (bytes : Bytes) (h : bytes.length ≤ 8) (crc : BitVec 32) :
    bitSteps (kCrc32cPolynomial.setWidth 64) (8 * bytes.length)
        (crc.setWidth 64 ^^^ leWord bytes) =
      (update kCrc32cPolynomial crc bytes).setWidth 64 := by
  induction bytes generalizing crc with
  | nil => simp [bitSteps, leWord]
  | cons b bytes ih =>
      simp only [List.length_cons] at h
      have hword : (leWord bytes).toNat * 2 ^ 8 < 2 ^ 64 := by
        have hlt := leWord_lt bytes (by omega)
        have hpow : 2 ^ (8 * bytes.length) ≤ 2 ^ 56 :=
          Nat.pow_le_pow_right (by decide) (by omega)
        omega
      have hbyte : (b.toBitVec.setWidth 64 : BitVec 64) =
          (b.toBitVec.setWidth 32 : BitVec 32).setWidth 64 := by
        rw [BitVec.setWidth_setWidth (by decide)]
      have hhead : bitSteps (kCrc32cPolynomial.setWidth 64) 8
          (crc.setWidth 64 ^^^ leWord (b :: bytes)) =
          (byteStep kCrc32cPolynomial crc b).setWidth 64 ^^^ leWord bytes := by
        rw [leWord, ← BitVec.xor_assoc, bitSteps_xor, bitSteps_shiftLeft _ _ _ hword, hbyte,
          ← BitVec.setWidth_xor, bitSteps_setWidth_of_le (by decide), byteStep]
      rw [List.length_cons, Nat.mul_succ, Nat.add_comm, bitSteps_add, hhead,
        ih (by omega), update_cons]

theorem mmCrc32U64_leWord (crc : BitVec 32) (bytes : Bytes) (h : bytes.length = 8) :
    mmCrc32U64 (crc.setWidth 64) (leWord bytes) =
      (update kCrc32cPolynomial crc bytes).setWidth 64 := by
  have hsteps := bitSteps_leWord bytes h.le crc
  rw [h] at hsteps
  rw [mmCrc32U64, setWidth_back]
  exact hsteps

theorem hardwareWords_eq (data : Bytes) (crc : BitVec 32) :
    ∃ crc' : BitVec 32, (hardwareWords (crc.setWidth 64) data).1 = crc'.setWidth 64 ∧
      update kCrc32cPolynomial crc' (hardwareWords (crc.setWidth 64) data).2 =
        update kCrc32cPolynomial crc data := by
  rcases data with - | ⟨b0, - | ⟨b1, - | ⟨b2, - | ⟨b3, - | ⟨b4, - | ⟨b5, - | ⟨b6, - | ⟨b7,
    rest⟩⟩⟩⟩⟩⟩⟩⟩
  case cons.cons.cons.cons.cons.cons.cons.cons =>
    rw [hardwareWords, mmCrc32U64_leWord _ _ rfl]
    obtain ⟨crc', h1, h2⟩ := hardwareWords_eq rest
      (update kCrc32cPolynomial crc [b0, b1, b2, b3, b4, b5, b6, b7])
    exact ⟨crc', h1, h2⟩
  all_goals exact ⟨crc, rfl, rfl⟩

theorem crc32cUpdateHardware_eq (crc32cHardwareAvailable : Bool) (state : BitVec 32)
    (data : Bytes) :
    crc32cUpdateHardware crc32cHardwareAvailable state data =
      update kCrc32cPolynomial state data := by
  rcases crc32cHardwareAvailable with - | -
  · exact crc32cUpdateSoftware_eq state data
  · obtain ⟨crc', h1, h2⟩ := hardwareWords_eq data state
    simp only [crc32cUpdateHardware, if_true, h1, setWidth_back]
    exact h2

/-- Every backend on every host computes the same register. -/
theorem crc32cUpdate_eq (crc32cHardwareAvailable : Bool) (state : BitVec 32) (data : Bytes)
    (backend : ChecksumBackend) :
    crc32cUpdate crc32cHardwareAvailable state data backend =
      update kCrc32cPolynomial state data := by
  rcases backend with - | - | -
  · rcases crc32cHardwareAvailable with - | -
    · exact crc32cUpdateSoftware_eq state data
    · exact crc32cUpdateHardware_eq true state data
  · exact crc32cUpdateSoftware_eq state data
  · exact crc32cUpdateHardware_eq crc32cHardwareAvailable state data

/-! ### The instructions as the manual documents them -/

/-- `11EDC6F41H`, the polynomial of CRC32C with its highest coefficient. -/
def kCrc32cDivisor : BitVec 33 := 0x11EDC6F41#33

/-- `MOD2`: the remainder of the dividend on division by `11EDC6F41H`, which
after `n` steps stands in the upper 32 bits. -/
def crc32Mod2 (n : Nat) (dividend : BitVec (n + 32)) : BitVec 32 :=
  (divisionSteps (kCrc32cDivisor.setWidth (n + 32) <<< (n - 1)) n dividend).extractLsb' n 32

/-- What the manual says of the instruction `CRC32` with an operand of `n` bits:
both operands are reflected, put one behind the other, divided, and the
remainder is reflected. -/
def documentedCrc32 (n : Nat) (crc : BitVec 32) (value : BitVec n) : BitVec 32 :=
  (crc32Mod2 n ((value.reverse.setWidth (n + 32)) <<< 32 ^^^
    (crc.reverse.setWidth (n + 32)) <<< n)).reverse

theorem reverse_reflected {m n k : Nat} (hn : n = m + k) (x : BitVec m) :
    ((x.reverse.setWidth n) <<< k).reverse = x.setWidth n := by
  refine BitVec.eq_of_getLsbD_eq fun i hi => ?_
  rw [reverse_shiftLeft, BitVec.getLsbD_ushiftRight, BitVec.getLsbD_reverse, BitVec.getMsbD,
    BitVec.getLsbD_setWidth, BitVec.getLsbD_setWidth, BitVec.getLsbD_reverse, BitVec.getMsbD]
  by_cases h : i < m
  · have hback : m - 1 - (n - 1 - (k + i)) = i := by omega
    rw [decide_eq_true (by omega : k + i < n), decide_eq_true (by omega : n - 1 - (k + i) < n),
      decide_eq_true (by omega : n - 1 - (k + i) < m), decide_eq_true hi, hback]
    rfl
  · rw [BitVec.getLsbD_of_ge x i (by omega), Bool.and_false, decide_eq_false (by omega),
      Bool.false_and]

theorem reverse_upper {n : Nat} (x : BitVec (n + 32)) :
    (x.extractLsb' n 32).reverse = x.reverse.setWidth 32 := by
  refine BitVec.eq_of_getLsbD_eq fun i hi => ?_
  rw [BitVec.getLsbD_reverse, BitVec.getMsbD, BitVec.getLsbD_extractLsb', BitVec.getLsbD_setWidth,
    BitVec.getLsbD_reverse, BitVec.getMsbD, decide_eq_true hi,
    decide_eq_true (by omega : 32 - 1 - i < 32), decide_eq_true (by omega : i < n + 32),
    Bool.true_and, Bool.true_and, Bool.true_and]
  congr 1
  omega

/-- **The documented function** shifts the operand through the register. -/
theorem documentedCrc32_eq {n : Nat} (hn : 0 < n) (crc : BitVec 32) (value : BitVec n) :
    documentedCrc32 n crc value =
      (bitSteps (kCrc32cPolynomial.setWidth (n + 32)) n
        (crc.setWidth (n + 32) ^^^ value.setWidth (n + 32))).setWidth 32 := by
  have hdivisor : (kCrc32cDivisor.setWidth (n + 32) <<< (n - 1)).reverse >>> 1 =
      kCrc32cPolynomial.setWidth (n + 32) := by
    have hmirror := @reverse_reflected 33 (n + 32) (n - 1) (by omega) kCrc32cDivisor.reverse
    rw [BitVec.reverse_reverse_eq] at hmirror
    have hpolynomial : kCrc32cDivisor.reverse >>> 1 = kCrc32cPolynomial.setWidth 33 := by
      decide +kernel
    rw [hmirror]
    refine BitVec.eq_of_getLsbD_eq fun i hi => ?_
    have hbit := congrArg (fun v => v.getLsbD i) hpolynomial
    simp only [BitVec.getLsbD_ushiftRight, BitVec.getLsbD_setWidth] at hbit ⊢
    by_cases h : i < 33
    · rw [decide_eq_true h, Bool.true_and] at hbit
      rw [decide_eq_true hi, Bool.true_and, ← hbit]
      by_cases hin : 1 + i < n + 32
      · rw [decide_eq_true hin, Bool.true_and]
      · rw [BitVec.getLsbD_of_ge kCrc32cDivisor.reverse _ (by omega), Bool.and_false]
    · rw [BitVec.getLsbD_of_ge kCrc32cPolynomial i (by omega),
        BitVec.getLsbD_of_ge kCrc32cDivisor.reverse _ (by omega), Bool.and_false, Bool.and_false]
  rw [documentedCrc32, crc32Mod2, reverse_upper, reverse_divisionSteps, hdivisor, reverse_xor,
    reverse_reflected rfl, reverse_reflected (Nat.add_comm n 32), BitVec.xor_comm]

/-- `_mm_crc32_u8` is the documented function. -/
theorem mmCrc32U8_documented (crc : BitVec 32) (value : UInt8) :
    mmCrc32U8 crc value = documentedCrc32 8 crc value.toBitVec := by
  have hvalue : (value.toBitVec.setWidth 40 : BitVec 40) =
      (value.toBitVec.setWidth 32 : BitVec 32).setWidth 40 := by
    rw [BitVec.setWidth_setWidth (by decide)]
  rw [documentedCrc32_eq (by decide), mmCrc32U8, byteStep, hvalue, ← BitVec.setWidth_xor,
    bitSteps_setWidth_of_le (by decide), BitVec.setWidth_setWidth (by decide), BitVec.setWidth_eq]

/-- `_mm_crc32_u64` is the documented function, zero-extended. -/
theorem mmCrc32U64_documented (crc value : BitVec 64) :
    mmCrc32U64 crc value = (documentedCrc32 64 (crc.setWidth 32) value).setWidth 64 := by
  generalize hcrc : crc.setWidth 32 = low
  have hwide : bitSteps (kCrc32cPolynomial.setWidth (64 + 32)) 64
      (low.setWidth (64 + 32) ^^^ value.setWidth (64 + 32)) =
      (mmCrc32U64 crc value).setWidth (64 + 32) := by
    have hlow : (low.setWidth (64 + 32) : BitVec (64 + 32)) =
        (low.setWidth 64 : BitVec 64).setWidth (64 + 32) := by
      rw [BitVec.setWidth_setWidth (by decide)]
    have hpolynomial : (kCrc32cPolynomial.setWidth (64 + 32) : BitVec (64 + 32)) =
        (kCrc32cPolynomial.setWidth 64 : BitVec 64).setWidth (64 + 32) := by
      rw [BitVec.setWidth_setWidth (by decide)]
    rw [hlow, hpolynomial, ← BitVec.setWidth_xor, bitSteps_setWidth_of_le (by decide), mmCrc32U64,
      hcrc]
  -- after sixty-four shifts only the remainder is left
  have hsmall : (mmCrc32U64 crc value).toNat < 2 ^ 32 := by
    refine toNat_bitSteps_lt (by decide) ?_
    exact (BitVec.isLt _).trans (by decide)
  rw [documentedCrc32_eq (by decide), hwide]
  apply BitVec.eq_of_toNat_eq
  rw [BitVec.toNat_setWidth, BitVec.toNat_setWidth, BitVec.toNat_setWidth]
  omega

/-! ### One shot -/

/-- `crc32c(data, size, backend)`. -/
def crc32c (crc32cHardwareAvailable : Bool) (data : Bytes) (backend : ChecksumBackend) :
    BitVec 32 :=
  crc32cFinalize (crc32cUpdate crc32cHardwareAvailable crc32cInitialState data backend)

/-- The checksum as a function of the bytes alone; `crc32c_eq` says that every
host and every backend computes it. -/
def crc32cOf (data : Bytes) : BitVec 32 :=
  crc32cFinalize (crc32cUpdateSoftware crc32cInitialState data)

theorem crc32c_eq (crc32cHardwareAvailable : Bool) (data : Bytes) (backend : ChecksumBackend) :
    crc32c crc32cHardwareAvailable data backend = crc32cOf data := by
  rw [crc32c, crc32cOf, crc32cUpdate_eq, crc32cUpdateSoftware_eq]

/-- Changing one to four consecutive bytes changes the checksum. -/
theorem crc32c_ne_of_burst {a b x y : Bytes} (hlen : x.length = y.length)
    (hw : x.length ≤ 4) (hne : x ≠ y) :
    crc32cOf (a ++ x ++ b) ≠ crc32cOf (a ++ y ++ b) := by
  intro h
  simp only [crc32cOf, crc32cUpdateSoftware_eq, crc32cFinalize] at h
  exact update_ne_of_burst msb_kCrc32cPolynomial hlen (by omega) hne _
    ((BitVec.xor_left_inj _).mp h)

/-- **Bursts are detected** by the table: `crc32c` of two strings that differ in
at most four bytes in a row differs. -/
theorem crc32c_detects_burst (crc32cHardwareAvailable : Bool) {a b x y : Bytes}
    (hlen : x.length = y.length) (hw : x.length ≤ 4) (hne : x ≠ y) :
    crc32c crc32cHardwareAvailable (a ++ x ++ b) .software ≠
      crc32c crc32cHardwareAvailable (a ++ y ++ b) .software := by
  rw [crc32c_eq, crc32c_eq]
  exact crc32c_ne_of_burst hlen hw hne

theorem crc32c_detects_burst_four :
    crc32c true ([7] ++ [1, 2, 3, 4] ++ [9, 9]) .software ≠
      crc32c true ([7] ++ [4, 3, 2, 0] ++ [9, 9]) .software :=
  crc32c_detects_burst true rfl (by decide) (by decide)

/-! ### The incremental computer -/

/-- `ChecksumComputer`. -/
structure ChecksumComputer where
  algorithm : ChecksumAlgorithm
  backend : ChecksumBackend
  state : BitVec 32
deriving DecidableEq, Repr

namespace ChecksumComputer

/-- `reset`. -/
def reset (c : ChecksumComputer) : ChecksumComputer :=
  { c with state := match c.algorithm with
    | .none => 0#32
    | .crc32c => crc32cInitialState }

/-- The constructor: an unavailable backend falls back to the table. -/
def new (crc32cHardwareAvailable : Bool) (algorithm : ChecksumAlgorithm)
    (backend : ChecksumBackend) : ChecksumComputer :=
  let resolved :=
    match resolveChecksumBackend crc32cHardwareAvailable algorithm backend with
    | .ok value => value
    | .error _ => .software
  reset ⟨algorithm, resolved, 0#32⟩

def update (crc32cHardwareAvailable : Bool) (c : ChecksumComputer) (data : Bytes) :
    ChecksumComputer :=
  match c.algorithm with
  | .none => c
  | .crc32c => { c with state := crc32cUpdate crc32cHardwareAvailable c.state data c.backend }

def finalize (c : ChecksumComputer) : ChecksumValue :=
  match c.algorithm with
  | .none => ⟨c.algorithm, 0#32⟩
  | .crc32c => ⟨c.algorithm, crc32cFinalize c.state⟩

end ChecksumComputer

/-- The checksum of a byte string under an algorithm, independent of host and
backend. -/
def checksumOf (algorithm : ChecksumAlgorithm) (data : Bytes) : ChecksumValue :=
  match algorithm with
  | .none => ⟨.none, 0#32⟩
  | .crc32c => ⟨.crc32c, crc32cOf data⟩

@[simp] theorem checksumOf_algorithm (algorithm : ChecksumAlgorithm) (data : Bytes) :
    (checksumOf algorithm data).algorithm = algorithm := by
  rcases algorithm with - | -
  · rfl
  · rfl

/-- The computer has been fed exactly `data` since its last reset. -/
def ChecksumComputer.Fed (c : ChecksumComputer) (data : Bytes) : Prop :=
  c.algorithm = .crc32c →
    c.state = ReflectedCrc.update kCrc32cPolynomial crc32cInitialState data

namespace ChecksumComputer

variable (crc32cHardwareAvailable : Bool)

theorem reset_fed (c : ChecksumComputer) : c.reset.Fed [] := by
  intro h
  have halg : c.algorithm = .crc32c := h
  simp [reset, halg]

@[simp] theorem reset_algorithm (c : ChecksumComputer) : c.reset.algorithm = c.algorithm := rfl

theorem new_fed (algorithm : ChecksumAlgorithm) (backend : ChecksumBackend) :
    (new crc32cHardwareAvailable algorithm backend).Fed [] :=
  reset_fed _

@[simp] theorem new_algorithm (algorithm : ChecksumAlgorithm) (backend : ChecksumBackend) :
    (new crc32cHardwareAvailable algorithm backend).algorithm = algorithm := rfl

@[simp] theorem update_algorithm (c : ChecksumComputer) (data : Bytes) :
    (c.update crc32cHardwareAvailable data).algorithm = c.algorithm := by
  rcases h : c.algorithm with - | -
  · simp [update, h]
  · simp [update, h]

theorem Fed.update {c : ChecksumComputer} {fed : Bytes} (h : c.Fed fed) (data : Bytes) :
    (c.update crc32cHardwareAvailable data).Fed (fed ++ data) := by
  intro halg
  rw [update_algorithm] at halg
  simp only [ChecksumComputer.update, halg, crc32cUpdate_eq, h halg, update_append]

/-- A computer fed `data` reports the checksum of `data`. -/
theorem Fed.finalize {c : ChecksumComputer} {data : Bytes} (h : c.Fed data) :
    c.finalize = checksumOf c.algorithm data := by
  rcases halg : c.algorithm with - | -
  · simp [ChecksumComputer.finalize, halg, checksumOf]
  · simp [ChecksumComputer.finalize, halg, checksumOf, crc32cOf, crc32cUpdateSoftware_eq,
      h halg]

end ChecksumComputer

/-! ### All computations agree -/

/-- The check bit by bit: `82F63B78H` reflected, started and ended with all
ones. -/
def bitwiseCrc32c (data : Bytes) : BitVec 32 :=
  feedBits kCrc32cPolynomial 0xFFFFFFFF#32 data ^^^ 0xFFFFFFFF#32

theorem bitwiseCrc32c_eq (data : Bytes) : bitwiseCrc32c data = crc32cOf data := by
  rw [bitwiseCrc32c, crc32cOf, crc32cUpdateSoftware_eq, feedBits_eq (by decide)]
  rfl

/-- Updates piece by piece are one update, for a function that feeds its bytes. -/
theorem foldl_pieces {step : BitVec 32 → Bytes → BitVec 32}
    (hstep : ∀ state data, step state data = update kCrc32cPolynomial state data)
    (state : BitVec 32) (pieces : List Bytes) :
    pieces.foldl step state = update kCrc32cPolynomial state pieces.flatten := by
  induction pieces generalizing state with
  | nil => rfl
  | cons data pieces ih => rw [List.foldl_cons, ih, hstep, List.flatten_cons, update_append]

theorem ChecksumComputer.Fed.foldl (crc32cHardwareAvailable : Bool) {c : ChecksumComputer}
    {fed : Bytes} (h : c.Fed fed) (pieces : List Bytes) :
    (pieces.foldl (ChecksumComputer.update crc32cHardwareAvailable) c).Fed
        (fed ++ pieces.flatten) ∧
      (pieces.foldl (ChecksumComputer.update crc32cHardwareAvailable) c).algorithm =
        c.algorithm := by
  induction pieces generalizing c fed with
  | nil =>
      rw [List.flatten_nil, List.append_nil]
      exact ⟨h, rfl⟩
  | cons data pieces ih =>
      obtain ⟨hfed, halg⟩ := ih (h.update crc32cHardwareAvailable data)
      rw [List.flatten_cons, ← List.append_assoc]
      exact ⟨hfed, halg.trans (ChecksumComputer.update_algorithm _ c data)⟩

/-- **All computations of CRC32C agree**: the table, the hardware loop whose two
instructions are the documented ones, the computer with any backend and the one
shot give the bitwise check of the whole, however it is cut into pieces. -/
theorem crc32c_computations_agree (crc32cHardwareAvailable : Bool) (backend : ChecksumBackend)
    (pieces : List Bytes) :
    (∀ crc value, mmCrc32U8 crc value = documentedCrc32 8 crc value.toBitVec) ∧
    (∀ crc value, mmCrc32U64 crc value =
      (documentedCrc32 64 (crc.setWidth 32) value).setWidth 64) ∧
    crc32cFinalize (pieces.foldl crc32cUpdateSoftware crc32cInitialState) =
      bitwiseCrc32c pieces.flatten ∧
    crc32cFinalize (pieces.foldl (crc32cUpdateHardware crc32cHardwareAvailable)
      crc32cInitialState) = bitwiseCrc32c pieces.flatten ∧
    (pieces.foldl (ChecksumComputer.update crc32cHardwareAvailable)
      (ChecksumComputer.new crc32cHardwareAvailable .crc32c backend)).finalize =
        ⟨.crc32c, bitwiseCrc32c pieces.flatten⟩ ∧
    crc32c crc32cHardwareAvailable pieces.flatten backend = bitwiseCrc32c pieces.flatten := by
  refine ⟨mmCrc32U8_documented, mmCrc32U64_documented, ?_, ?_, ?_, ?_⟩
  · rw [foldl_pieces crc32cUpdateSoftware_eq, bitwiseCrc32c_eq, crc32cOf, crc32cUpdateSoftware_eq]
  · rw [foldl_pieces (crc32cUpdateHardware_eq _), bitwiseCrc32c_eq, crc32cOf,
      crc32cUpdateSoftware_eq]
  · obtain ⟨hfed, halg⟩ := (ChecksumComputer.new_fed crc32cHardwareAvailable .crc32c backend).foldl
      crc32cHardwareAvailable pieces
    rw [ChecksumComputer.new_algorithm] at halg
    rw [hfed.finalize, halg, List.nil_append, bitwiseCrc32c_eq]
    rfl
  · rw [crc32c_eq, bitwiseCrc32c_eq]

end GridFlux
