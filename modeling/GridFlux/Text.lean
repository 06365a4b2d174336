/-
GridFlux/Text.lean

A library for line-oriented text formats: cutting a text at a separator,
splitting off a key, decimal and hexadecimal numerals.  It names nothing of
the transfer code; separators are arbitrary elements of an arbitrary type.

`pieces sep text` cuts the way a `find`/`substr` loop (or `std::getline`)
does: a separator at the very end opens no further piece.

Main results: cutting inverts joining (`pieces_join`, `pieces_lines`),
`splitFirst` inverts `key ++ sep :: value`, decimal and hexadecimal numerals
read back (`decimalValue_decimal`, `hexValue_digits`), and an edit that
touches no separator stays inside one line (`exists_line_of_edit`).
-/
import Mathlib.Data.List.Basic
import Mathlib.Tactic.IntervalCases

namespace TextCodec

variable {α : Type*}

/-! ### Terminated lines and joined items -/

/-- Terminate every line by the separator. -/
def lines (sep : α) (ls : List (List α)) : List α :=
  (ls.map fun l => l ++ [sep]).flatten

@[simp] theorem lines_nil (sep : α) : lines sep ([] : List (List α)) = [] := rfl

@[simp] theorem lines_cons (sep : α) (l : List α) (ls : List (List α)) :
    lines sep (l :: ls) = l ++ sep :: lines sep ls := by
  simp [lines]

@[simp] theorem lines_append (sep : α) (ls ls' : List (List α)) :
    lines sep (ls ++ ls') = lines sep ls ++ lines sep ls' := by
  simp [lines]

/-- Put the separator between the items. -/
def join (sep : α) : List (List α) → List α
  | [] => []
  | [p] => p
  | p :: q :: ps => p ++ sep :: join sep (q :: ps)

theorem mem_join {sep x : α} {ps : List (List α)} (hx : x ∈ join sep ps) :
    x = sep ∨ ∃ p ∈ ps, x ∈ p := by
  induction ps with
  | nil => simp [join] at hx
  | cons p ps ih =>
      rcases ps with - | ⟨q, ps⟩
      · exact Or.inr ⟨p, by simp, hx⟩
      · simp only [join, List.mem_append, List.mem_cons] at hx
        rcases hx with hx | rfl | hx
        · exact Or.inr ⟨p, by simp, hx⟩
        · exact Or.inl rfl
        · rcases ih hx with rfl | ⟨r, hr, hx⟩
          · exact Or.inl rfl
          · exact Or.inr ⟨r, List.mem_cons_of_mem _ hr, hx⟩

theorem join_append (sep : α) {ps qs : List (List α)} (hps : ps ≠ []) (hqs : qs ≠ []) :
    join sep (ps ++ qs) = join sep ps ++ sep :: join sep qs := by
  induction ps with
  | nil => exact absurd rfl hps
  | cons p ps ih =>
      cases ps with
      | nil =>
          cases qs with
          | nil => exact absurd rfl hqs
          | cons q qs => rfl
      | cons p' ps =>
          show p ++ sep :: join sep ((p' :: ps) ++ qs) = _
          rw [ih (List.cons_ne_nil p' ps)]
          simp [join]

theorem join_eq_nil_iff {sep : α} {ps : List (List α)} (h : ∀ p ∈ ps, p ≠ []) :
    join sep ps = [] ↔ ps = [] := by
  rcases ps with - | ⟨p, - | ⟨q, ps⟩⟩
  · simp [join]
  · simpa [join] using h p (by simp)
  · simp [join]

/-! ### Edits that touch no separator -/

/-- A non-empty separator-free stretch of a text of terminated lines lies
inside one of them. -/
theorem exists_line_of_edit {sep : α} {ls : List (List α)} {a x b : List α}
    (hls : ∀ l ∈ ls, sep ∉ l) (hx : sep ∉ x) (hne : x ≠ [])
    (h : lines sep ls = a ++ x ++ b) :
    ∃ pre l post u v, ls = pre ++ l :: post ∧ l = u ++ x ++ v ∧
      a = lines sep pre ++ u ∧ b = v ++ sep :: lines sep post := by
  induction ls generalizing a with
  | nil =>
      simp only [lines_nil] at h
      simp [List.nil_eq, hne] at h
  | cons l ls ih =>
      have hl : sep ∉ l := hls l (by simp)
      rw [lines_cons, List.append_assoc] at h
      rcases List.append_eq_append_iff.mp h with ⟨a', rfl, htail⟩ | ⟨u', hl', htail⟩
      · rcases a' with - | ⟨c, a'⟩
        · -- the stretch would start with the separator
          rcases x with - | ⟨c, x⟩
          · exact absurd rfl hne
          · simp only [List.nil_append, List.cons_append, List.cons.injEq] at htail
            exact absurd htail.1 fun hc => hx (by simp [hc])
        · simp only [List.cons_append, List.cons.injEq] at htail
          obtain ⟨rfl, htail⟩ := htail
          rw [← List.append_assoc] at htail
          obtain ⟨pre, l', post, u, v, rfl, hl', rfl, rfl⟩ :=
            ih (fun l' hl' => hls l' (by simp [hl'])) htail
          exact ⟨l :: pre, l', post, u, v, rfl, hl', by simp, rfl⟩
      · rcases List.append_eq_append_iff.mp htail with ⟨v', hu', hb⟩ | ⟨v', hx', htail'⟩
        · exact ⟨[], l, ls, a, v', rfl, by rw [hl', hu', List.append_assoc], by simp, hb⟩
        · rcases v' with - | ⟨c, v'⟩
          · simp only [List.append_nil] at hx'
            simp only [List.nil_append] at htail'
            exact ⟨[], l, ls, a, [], rfl, by rw [hl', hx', List.append_nil], by simp,
              by rw [← htail']; rfl⟩
          · -- the stretch would reach over the end of the line
            simp only [List.cons_append, List.cons.injEq] at htail'
            rw [hx', htail'.1] at hx
            simp at hx

variable [DecidableEq α]

/-! ### Cutting at a separator -/

/-- The pieces of a text between separators; a trailing separator opens no
further piece. -/
def pieces (sep : α) : List α → List (List α)
  | [] => []
  | x :: xs =>
      if x = sep then [] :: pieces sep xs
      else
        match pieces sep xs with
        | [] => [[x]]
        | p :: ps => (x :: p) :: ps

theorem pieces_append_sep (sep : α) {p : List α} (hp : sep ∉ p) (rest : List α) :
    pieces sep (p ++ sep :: rest) = p :: pieces sep rest := by
  induction p with
  | nil => simp [pieces]
  | cons x p ih =>
      have hx : x ≠ sep := fun h => hp (by simp [h])
      have hp' : sep ∉ p := fun h => hp (by simp [h])
      simp [pieces, hx, ih hp']

theorem pieces_of_notMem (sep : α) {p : List α} (hp : sep ∉ p) (hne : p ≠ []) :
    pieces sep p = [p] := by
  induction p with
  | nil => exact absurd rfl hne
  | cons x p ih =>
      have hx : x ≠ sep := fun h => hp (by simp [h])
      have hp' : sep ∉ p := fun h => hp (by simp [h])
      rcases p with - | ⟨y, p⟩
      · simp [pieces, hx]
      · rw [pieces, if_neg hx, ih hp' (by simp)]

theorem notMem_of_mem_pieces (sep : α) {text p : List α} (h : p ∈ pieces sep text) : sep ∉ p := by
  induction text generalizing p with
  | nil => cases h
  | cons x xs ih =>
      rw [pieces] at h
      split at h
      · rcases List.mem_cons.mp h with rfl | h
        · exact List.not_mem_nil
        · exact ih h
      · rename_i hx
        cases hpieces : pieces sep xs with
        | nil =>
            rw [hpieces] at h
            rw [List.mem_singleton.mp h, List.mem_singleton]
            exact fun heq => hx heq.symm
        | cons first rest =>
            rw [hpieces] at h ih
            rcases List.mem_cons.mp h with rfl | h
            · rw [List.mem_cons, not_or]
              exact ⟨fun heq => hx heq.symm, ih List.mem_cons_self⟩
            · exact ih (List.mem_cons_of_mem _ h)

/-- A text that does not begin with the separator begins with a piece. -/
theorem mem_pieces_head (sep : α) {c : α} {text : List α} (hhead : text.head? = some c)
    (hc : c ≠ sep) : ∃ p ∈ pieces sep text, p.head? = some c := by
  cases text with
  | nil => cases hhead
  | cons x rest =>
      obtain rfl := Option.some.inj hhead
      rw [pieces, if_neg hc]
      cases pieces sep rest with
      | nil => exact ⟨[x], List.mem_cons_self, rfl⟩
      | cons p rest => exact ⟨x :: p, List.mem_cons_self, rfl⟩

/-- A text that does not end with the separator ends with a piece. -/
theorem mem_pieces_getLast (sep : α) {c : α} {text : List α} (hlast : text.getLast? = some c)
    (hc : c ≠ sep) : ∃ p ∈ pieces sep text, p.getLast? = some c := by
  obtain ⟨init, rfl⟩ := List.getLast?_eq_some_iff.mp hlast
  clear hlast
  induction init with
  | nil => exact ⟨[c], by rw [List.nil_append, pieces, if_neg hc]; exact List.mem_cons_self, rfl⟩
  | cons x init ih =>
      obtain ⟨p, hp, hlast⟩ := ih
      rw [List.cons_append, pieces]
      split
      · exact ⟨p, List.mem_cons_of_mem _ hp, hlast⟩
      · cases hpieces : pieces sep (init ++ [c]) with
        | nil =>
            rw [hpieces] at hp
            cases hp
        | cons first rest =>
            rw [hpieces] at hp
            rcases List.mem_cons.mp hp with rfl | hp
            · refine ⟨x :: p, List.mem_cons_self, ?_⟩
              rw [List.getLast?_cons, hlast]
              rfl
            · exact ⟨p, List.mem_cons_of_mem _ hp, hlast⟩

/-- Cutting a text of terminated lines gives the lines. -/
theorem pieces_lines (sep : α) {ls : List (List α)} (h : ∀ l ∈ ls, sep ∉ l) :
    pieces sep (lines sep ls) = ls := by
  induction ls with
  | nil => rfl
  | cons l ls ih =>
      rw [lines_cons, pieces_append_sep sep (h l (by simp)),
        ih fun l' hl' => h l' (by simp [hl'])]

/-- Cutting a joined list of non-empty separator-free items gives the items. -/
theorem pieces_join (sep : α) {ps : List (List α)} (h : ∀ p ∈ ps, sep ∉ p ∧ p ≠ []) :
    pieces sep (join sep ps) = ps := by
  induction ps with
  | nil => rfl
  | cons p ps ih =>
      obtain ⟨hp, hne⟩ := h p (by simp)
      rcases ps with - | ⟨q, ps⟩
      · exact pieces_of_notMem sep hp hne
      · rw [join, pieces_append_sep sep hp, ih fun r hr => h r (by simp [hr])]

/-! ### Runs of separators -/

/-- Write every run of separators as one. -/
def squeeze (sep : α) : List α → List α
  | [] => []
  | [x] => [x]
  | x :: y :: rest =>
      if x = sep ∧ y = sep then squeeze sep (y :: rest) else x :: squeeze sep (y :: rest)

/-- What is left of a text that does not end in a separator: its non-empty
pieces, joined, behind a separator if it begins with one. -/
theorem squeeze_eq (sep : α) {text : List α} (hlast : text.getLast? ≠ some sep) :
    squeeze sep text =
      (if text.head? = some sep then [sep] else []) ++
        join sep ((pieces sep text).filter (· ≠ [])) := by
  induction text with
  | nil => rfl
  | cons x rest ih =>
      cases rest with
      | nil =>
          have hx : x ≠ sep := fun h => hlast (by rw [h]; rfl)
          simp [squeeze, pieces, join, hx]
      | cons y rest =>
          have htail := ih (by rwa [List.getLast?_cons_cons] at hlast)
          by_cases hx : x = sep
          · subst hx
            rw [squeeze, pieces, if_pos rfl, List.head?_cons, if_pos rfl,
              List.filter_cons_of_neg (by simp), htail, List.head?_cons]
            by_cases hy : y = x
            · rw [if_pos ⟨rfl, hy⟩, if_pos (congrArg some hy)]
            · rw [if_neg fun h => hy h.2, if_neg fun h => hy (Option.some.inj h)]
              rfl
          · rw [squeeze, if_neg fun h => hx h.1, htail, List.head?_cons, List.head?_cons,
              if_neg fun h => hx (Option.some.inj h), List.nil_append]
            conv_rhs => rw [pieces, if_neg hx]
            by_cases hy : y = sep
            · -- the piece ends here, and another follows
              subst hy
              have hpieces : pieces y (y :: rest) = [] :: pieces y rest := by
                rw [pieces, if_pos rfl]
              have hmore : (pieces y rest).filter (· ≠ []) ≠ [] := by
                intro hnone
                obtain ⟨c, hc⟩ :=
                  Option.isSome_iff_exists.mp (List.getLast?_isSome.mpr (List.cons_ne_nil y rest))
                have hcy : c ≠ y := by
                  rintro rfl
                  exact hlast (by rw [List.getLast?_cons_cons, hc])
                obtain ⟨p, hp, hplast⟩ := mem_pieces_getLast y hc hcy
                rw [hpieces] at hp
                have hne : p ≠ [] := by
                  rintro rfl
                  cases hplast
                have hmem : p ∈ (pieces y rest).filter (· ≠ []) := by
                  rcases List.mem_cons.mp hp with rfl | hp
                  · exact absurd rfl hne
                  · exact List.mem_filter.mpr ⟨hp, by simpa using hne⟩
                rw [hnone] at hmem
                cases hmem
              rw [hpieces, if_pos rfl, List.filter_cons_of_neg (by simp),
                List.filter_cons_of_pos (by simp)]
              obtain ⟨p, ps, hps⟩ := List.exists_cons_of_ne_nil hmore
              rw [hps]
              rfl
            · rw [if_neg fun h => hy (Option.some.inj h), List.nil_append]
              -- the piece goes on
              obtain ⟨p, ps, hps, hp⟩ : ∃ p ps, pieces sep (y :: rest) = p :: ps ∧ p ≠ [] := by
                rw [pieces, if_neg hy]
                cases pieces sep rest with
                | nil => exact ⟨[y], [], rfl, List.cons_ne_nil _ _⟩
                | cons p ps => exact ⟨y :: p, ps, rfl, List.cons_ne_nil _ _⟩
              rw [hps]
              dsimp only
              rw [List.filter_cons_of_pos (by simpa using hp), List.filter_cons_of_pos (by simp)]
              cases ps.filter (· ≠ []) with
              | nil => rfl
              | cons q qs => rfl

/-- Texts that neither begin nor end with a separator are equal up to the length
of its runs exactly if they have the same non-empty pieces. -/
theorem squeeze_eq_squeeze_iff (sep : α) {text text' : List α}
    (hhead : text.head? ≠ some sep) (hlast : text.getLast? ≠ some sep)
    (hhead' : text'.head? ≠ some sep) (hlast' : text'.getLast? ≠ some sep) :
    squeeze sep text = squeeze sep text' ↔
      (pieces sep text).filter (· ≠ []) = (pieces sep text').filter (· ≠ []) := by
  have hpieces : ∀ t : List α, pieces sep (join sep ((pieces sep t).filter (· ≠ []))) =
      (pieces sep t).filter (· ≠ []) := by
    intro t
    apply pieces_join
    intro p hp
    obtain ⟨hmem, hne⟩ := List.mem_filter.mp hp
    exact ⟨notMem_of_mem_pieces sep hmem, by simpa using hne⟩
  rw [squeeze_eq sep hlast, squeeze_eq sep hlast', if_neg hhead, if_neg hhead', List.nil_append,
    List.nil_append]
  constructor
  · intro h
    rw [← hpieces text, h, hpieces]
  · exact congrArg (join sep)

/-! ### Splitting off the part before the first separator -/

/-- Split at the first separator: what stands before it and after it. -/
def splitFirst (sep : α) : List α → Option (List α × List α)
  | [] => none
  | x :: xs =>
      if x = sep then some ([], xs)
      else (splitFirst sep xs).map fun kv => (x :: kv.1, kv.2)

theorem splitFirst_append (sep : α) {k : List α} (hk : sep ∉ k) (v : List α) :
    splitFirst sep (k ++ sep :: v) = some (k, v) := by
  induction k with
  | nil => simp [splitFirst]
  | cons x k ih =>
      have hx : x ≠ sep := fun h => hk (by simp [h])
      have hk' : sep ∉ k := fun h => hk (by simp [h])
      simp [splitFirst, hx, ih hk']

/-- A successful split is the only way to read the text as `key sep value`. -/
theorem splitFirst_eq_some {sep : α} {text k v : List α} :
    splitFirst sep text = some (k, v) ↔ text = k ++ sep :: v ∧ sep ∉ k := by
  constructor
  · intro h
    induction text generalizing k v with
    | nil => simp [splitFirst] at h
    | cons x xs ih =>
        by_cases hx : x = sep
        · simp only [splitFirst, hx, if_true, Option.some.injEq, Prod.mk.injEq] at h
          obtain ⟨rfl, rfl⟩ := h
          simp [hx]
        · simp only [splitFirst, hx, if_false, Option.map_eq_some_iff] at h
          obtain ⟨⟨k', v'⟩, h', heq⟩ := h
          simp only [Prod.mk.injEq] at heq
          obtain ⟨rfl, rfl⟩ := heq
          obtain ⟨rfl, hk'⟩ := ih h'
          refine ⟨rfl, ?_⟩
          simp only [List.mem_cons, not_or]
          exact ⟨Ne.symm hx, hk'⟩
  · rintro ⟨rfl, hk⟩
    exact splitFirst_append sep hk v

theorem splitFirst_eq_none {sep : α} {text : List α} :
    splitFirst sep text = none ↔ sep ∉ text := by
  induction text with
  | nil => simp [splitFirst]
  | cons x xs ih =>
      by_cases hx : x = sep
      · simp [splitFirst, hx]
      · simp [splitFirst, hx, ih, Ne.symm hx]

/-! ### Decimal numerals -/

/-- The byte of an ASCII character. -/
def charByte (c : Char) : UInt8 := UInt8.ofNat c.toNat

/-- The decimal digits of a number. -/
def decimal (n : Nat) : List UInt8 := (Nat.toDigits 10 n).map charByte

/-- The byte is one of `0`-`9`. -/
def isDigit (b : UInt8) : Bool := 48 ≤ b && b ≤ 57

/-- The value of a string of digits. -/
def decimalValue (text : List UInt8) : Nat :=
  text.foldl (fun value b => 10 * value + (b.toNat - 48)) 0

theorem charByte_toNat {c : Char} (hc : c.isDigit) : (charByte c).toNat = c.toNat := by
  have hle : c.toNat ≤ 57 := by
    simp only [Char.isDigit, Bool.and_eq_true, decide_eq_true_eq] at hc
    exact hc.2
  simp only [charByte, UInt8.toNat_ofNat']
  omega

theorem isDigit_charByte {c : Char} (hc : c.isDigit) : isDigit (charByte c) = true := by
  have hval := charByte_toNat hc
  simp only [Char.isDigit, Bool.and_eq_true, decide_eq_true_eq] at hc
  simp only [isDigit, Bool.and_eq_true, decide_eq_true_eq, UInt8.le_iff_toNat_le, hval]
  exact hc

theorem isDigit_of_mem_decimal {n : Nat} {b : UInt8} (hb : b ∈ decimal n) :
    isDigit b = true := by
  obtain ⟨c, hc, rfl⟩ := List.mem_map.mp hb
  exact isDigit_charByte (Nat.isDigit_of_mem_toDigits (by decide) (by decide) hc)

theorem decimal_ne_nil (n : Nat) : decimal n ≠ [] := by
  simp [decimal, Nat.toDigits_ne_nil]

/-- A numeral reads back. -/
theorem decimalValue_decimal (n : Nat) : decimalValue (decimal n) = n := by
  have hfold : ∀ (cs : List Char) (init : Nat), (∀ c ∈ cs, c.isDigit = true) →
      (cs.map charByte).foldl (fun value b => 10 * value + (b.toNat - 48)) init =
        Nat.ofDigitChars 10 cs init := by
    intro cs
    induction cs with
    | nil => exact fun _ _ => rfl
    | cons c cs ih =>
        intro init h
        rw [List.map_cons, List.foldl_cons, charByte_toNat (h c (by simp)),
          ih _ fun d hd => h d (by simp [hd]), Nat.ofDigitChars_cons]
        rfl
  rw [decimalValue, decimal, hfold _ _ fun c hc =>
    Nat.isDigit_of_mem_toDigits (by decide) (by decide) hc]
  exact Nat.ofDigitChars_ten_toDigits

/-! ### Hexadecimal numerals -/

/-- The byte is a hexadecimal digit in either case. -/
def isHexDigit (b : UInt8) : Bool :=
  (48 ≤ b && b ≤ 57) || (97 ≤ b && b ≤ 102) || (65 ≤ b && b ≤ 70)

/-- The value of a hexadecimal digit. -/
def hexValue (b : UInt8) : Nat :=
  if 48 ≤ b && b ≤ 57 then b.toNat - 48
  else if 97 ≤ b && b ≤ 102 then b.toNat - 97 + 10
  else b.toNat - 65 + 10

/-- The lower-case digit of a value below sixteen. -/
def hexDigit (n : Nat) : UInt8 :=
  if n < 10 then UInt8.ofNat (48 + n) else UInt8.ofNat (97 + (n - 10))

theorem isHexDigit_hexDigit {n : Nat} (h : n < 16) : isHexDigit (hexDigit n) = true := by
  interval_cases n <;> rfl

theorem hexValue_hexDigit {n : Nat} (h : n < 16) : hexValue (hexDigit n) = n := by
  interval_cases n <;> rfl

/-- The `k` hexadecimal digits of `n`, most significant first. -/
def hexDigits : Nat → Nat → List UInt8
  | 0, _ => []
  | k + 1, n => hexDigits k (n / 16) ++ [hexDigit (n % 16)]

/-- The value of a string of hexadecimal digits, most significant first. -/
def hexNumber (text : List UInt8) : Nat :=
  text.foldl (fun value b => 16 * value + hexValue b) 0

@[simp] theorem length_hexDigits (k n : Nat) : (hexDigits k n).length = k := by
  induction k generalizing n with
  | zero => rfl
  | succ k ih => simp [hexDigits, ih]

theorem mem_hexDigits {k n : Nat} {b : UInt8} (hb : b ∈ hexDigits k n) :
    ∃ d < 16, b = hexDigit d := by
  induction k generalizing n with
  | zero => simp [hexDigits] at hb
  | succ k ih =>
      rcases List.mem_append.mp hb with hb | hb
      · exact ih hb
      · exact ⟨n % 16, Nat.mod_lt _ (by decide), List.mem_singleton.mp hb⟩

/-- A numeral of `k` digits reads back. -/
theorem hexNumber_hexDigits {k n : Nat} (h : n < 16 ^ k) : hexNumber (hexDigits k n) = n := by
  induction k generalizing n with
  | zero =>
      obtain rfl : n = 0 := by simpa using h
      rfl
  | succ k ih =>
      have hdiv : n / 16 < 16 ^ k := Nat.div_lt_of_lt_mul (by rwa [pow_succ'] at h)
      have ih' := ih hdiv
      rw [hexNumber] at ih' ⊢
      rw [hexDigits, List.foldl_append, ih', List.foldl_cons, List.foldl_nil,
        hexValue_hexDigit (Nat.mod_lt _ (by decide))]
      omega

end TextCodec
