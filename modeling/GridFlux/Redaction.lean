/-
GridFlux/Redaction.lean

`sanitizeMessage` of `event_log.cpp`: what of a password stays in a message.

The loop of the source equals a scan from left to right, `redact`
(`sanitizeMessage_eq`).  Two texts are redacted to the same one exactly if they
agree outside the words that follow a `PASS ` (`redact_eq_iff`).  The word ends at
the first blank, the argument of a control command at the end of its line, so
what a secret holds from its first blank on stays.
-/
import GridFlux.ControlCommand
import GridFlux.TextSearch

namespace GridFlux

open TextCodec

/-! ### The source -/

def kPassword : Bytes := ascii "PASS "

def redacted : Bytes := ascii "<redacted>"

/-- Not one of `"\r\n\t "`. -/
def inSecret (c : UInt8) : Bool := c ≠ 13 && c ≠ 10 && c ≠ 9 && c ≠ 32

/-- The loop of `sanitizeMessage`, which each round takes closer to the end of
the text. -/
def sanitizeLoop : Nat → Bytes → Nat → Bytes
  | 0, output, _ => output
  | fuel + 1, output, position =>
      match findFrom kPassword output position with
      | none => output
      | some position =>
          let begin := position + 5
          let rest := (output.drop begin).dropWhile inSecret
          sanitizeLoop fuel (output.take begin ++ redacted ++ rest) (begin + 10)

def sanitizeMessage (message : Bytes) : Bytes := sanitizeLoop (message.length + 1) message 0

/-! ### The scan -/

/-- What follows the word. -/
def afterWord (text : Bytes) : Bytes := text.dropWhile inSecret

theorem afterWord_length (text : Bytes) : (afterWord text).length ≤ text.length :=
  (List.dropWhile_sublist _).length_le

/-- The redacted text, from left to right. -/
def redact (text : Bytes) : Bytes :=
  if _h : kPassword <+: text then kPassword ++ redacted ++ redact (afterWord (text.drop 5))
  else
    match text with
    | [] => []
    | c :: rest => c :: redact rest
termination_by text.length
decreasing_by
  · have hle := _h.length_le
    have hdrop := afterWord_length (text.drop 5)
    rw [List.length_drop] at hdrop
    have hfive : kPassword.length = 5 := rfl
    omega
  · exact Nat.lt_succ_self _

theorem redact_nil : redact [] = [] := by
  unfold redact
  rfl

theorem redact_pass (text : Bytes) :
    redact (kPassword ++ text) = kPassword ++ redacted ++ redact (afterWord text) := by
  have hdrop : (kPassword ++ text).drop 5 = text := rfl
  rw [redact.eq_def, dif_pos (List.prefix_append _ _), hdrop]

theorem redact_cons {c : UInt8} {rest : Bytes} (h : ¬kPassword <+: c :: rest) :
    redact (c :: rest) = c :: redact rest := by
  rw [redact.eq_def, dif_neg h]

/-- Up to the first `PASS ` nothing changes. -/
theorem redact_append {front rest : Bytes}
    (h : ∀ j < front.length, ¬OccursAt kPassword (front ++ rest) j) :
    redact (front ++ rest) = front ++ redact rest := by
  induction front with
  | nil => rfl
  | cons c front ih =>
      have hhere : ¬kPassword <+: c :: (front ++ rest) := h 0 (Nat.succ_pos _)
      rw [List.cons_append, redact_cons hhere, ih, List.cons_append]
      intro j hj
      exact h (j + 1) (Nat.succ_lt_succ hj)

theorem redact_eq_self {text : Bytes} (h : ∀ j ≤ text.length, ¬OccursAt kPassword text j) :
    redact text = text := by
  have happend := @redact_append text [] fun j hj => by
    rw [List.append_nil]
    exact h j (Nat.le_of_lt hj)
  rwa [List.append_nil, redact_nil, List.append_nil] at happend

/-- **The loop of the source is the scan** of what lies beyond its position. -/
theorem sanitizeLoop_eq {fuel : Nat} {front rest : Bytes} (h : rest.length < fuel) :
    sanitizeLoop fuel (front ++ rest) front.length = front ++ redact rest := by
  induction fuel generalizing front rest with
  | zero => exact absurd h (Nat.not_lt_zero _)
  | succ fuel ih =>
      have hfrom : findFrom kPassword (front ++ rest) front.length =
          (find kPassword rest).map (· + front.length) := by
        rw [findFrom, if_pos (by rw [List.length_append]; exact Nat.le_add_right _ _),
          List.drop_left]
      rw [sanitizeLoop, hfrom]
      cases hfind : find kPassword rest with
      | none => rw [Option.map_none, redact_eq_self (find_eq_none.mp hfind)]
      | some k =>
          obtain ⟨⟨tail, htail⟩, hle, hfirst⟩ := find_eq_some.mp hfind
          have hrest : rest = rest.take k ++ (kPassword ++ tail) := by
            rw [htail, List.take_append_drop]
          have htake : (rest.take k).length = k := List.length_take_of_le hle
          generalize rest.take k = skipped at hrest htake
          subst hrest htake
          have hbegin : front.length + (skipped ++ kPassword).length =
              skipped.length + front.length + 5 := by
            rw [List.length_append]
            show front.length + (skipped.length + 5) = _
            omega
          have houtput : front ++ (skipped ++ (kPassword ++ tail)) =
              (front ++ (skipped ++ kPassword)) ++ tail := by
            simp only [List.append_assoc]
          have hlength : (front ++ (skipped ++ kPassword)).length =
              skipped.length + front.length + 5 := by
            rw [List.length_append, hbegin]
          have hnext : (front ++ (skipped ++ kPassword) ++ redacted).length =
              skipped.length + front.length + 5 + 10 := by
            rw [List.length_append, hlength]
            rfl
          rw [Option.map_some]
          dsimp only
          rw [houtput, ← hlength, List.take_left, List.drop_left]
          have hgo := @ih (front ++ (skipped ++ kPassword) ++ redacted) (afterWord tail) (by
            have hword := afterWord_length tail
            simp only [List.length_append] at h
            have hfive : kPassword.length = 5 := rfl
            omega)
          rw [hnext] at hgo
          rw [hlength]
          rw [redact_append fun j hj => hfirst j hj, redact_pass]
          refine hgo.trans ?_
          simp only [List.append_assoc]

theorem sanitizeMessage_eq (message : Bytes) : sanitizeMessage message = redact message :=
  @sanitizeLoop_eq (message.length + 1) [] message (Nat.lt_succ_self _)

/-! ### What two redacted texts have in common -/

/-- The texts agree outside the words that follow a `PASS `. -/
inductive Alike : Bytes → Bytes → Prop
  | nil : Alike [] []
  | same {c : UInt8} {text text' : Bytes} (h : ¬kPassword <+: c :: text)
      (h' : ¬kPassword <+: c :: text') (hrest : Alike text text') : Alike (c :: text) (c :: text')
  | word {text text' : Bytes} (hrest : Alike (afterWord text) (afterWord text')) :
      Alike (kPassword ++ text) (kPassword ++ text')

/-- A text is redacted to one that begins with another letter than `P` only if it
begins with this letter itself. -/
theorem cons_of_redact {text rest : Bytes} {c : UInt8} (h : redact text = c :: rest)
    (hc : c ≠ 80) : ∃ text', text = c :: text' ∧ redact text' = rest := by
  by_cases hpass : kPassword <+: text
  · obtain ⟨tail, rfl⟩ := hpass
    rw [redact_pass] at h
    exact absurd (List.cons.inj h).1.symm hc
  · cases text with
    | nil =>
        rw [redact_nil] at h
        cases h
    | cons c' text' =>
        rw [redact_cons hpass] at h
        obtain ⟨rfl, hrest⟩ := List.cons.inj h
        exact ⟨text', rfl, hrest⟩

/-- What is redacted to a text with `PASS ` in front has it in front itself. -/
theorem pass_of_redact {text rest : Bytes} (h : redact text = kPassword ++ rest) :
    kPassword <+: text := by
  by_contra hnot
  cases text with
  | nil =>
      rw [redact_nil] at h
      cases h
  | cons c text =>
      rw [redact_cons hnot] at h
      have hletters : c :: redact text = 80 :: 65 :: 83 :: 83 :: 32 :: rest := h
      obtain ⟨rfl, hA⟩ := List.cons.inj hletters
      obtain ⟨text₁, rfl, hS⟩ := cons_of_redact hA (by decide)
      obtain ⟨text₂, rfl, hS'⟩ := cons_of_redact hS (by decide)
      obtain ⟨text₃, rfl, hblank⟩ := cons_of_redact hS' (by decide)
      obtain ⟨text₄, rfl, -⟩ := cons_of_redact hblank (by decide)
      exact hnot ⟨text₄, rfl⟩

theorem Alike.redact_eq {text text' : Bytes} (h : Alike text text') :
    redact text = redact text' := by
  induction h with
  | nil => rfl
  | same h h' _ ih => rw [redact_cons h, redact_cons h', ih]
  | word _ ih => rw [redact_pass, redact_pass, ih]

/-- **Two texts are redacted alike** exactly if they are alike. -/
theorem redact_eq_iff {text text' : Bytes} : redact text = redact text' ↔ Alike text text' := by
  refine ⟨fun h => ?_, Alike.redact_eq⟩
  induction hlength : text.length using Nat.strong_induction_on generalizing text text' with
  | h length ih =>
      by_cases hpass : kPassword <+: text
      · obtain ⟨tail, rfl⟩ := hpass
        have hpass' : kPassword <+: text' := by
          rw [redact_pass, List.append_assoc] at h
          exact pass_of_redact h.symm
        obtain ⟨tail', rfl⟩ := hpass'
        rw [redact_pass, redact_pass] at h
        have hword := afterWord_length tail
        have hfive : (kPassword ++ tail).length = 5 + tail.length := by
          rw [List.length_append]
          rfl
        exact .word (ih (afterWord tail).length (by omega) (List.append_cancel_left h) rfl)
      · have hpass' : ¬kPassword <+: text' := by
          rintro ⟨tail', rfl⟩
          rw [redact_pass, List.append_assoc] at h
          exact hpass (pass_of_redact h)
        cases text with
        | nil =>
            cases text' with
            | nil => exact .nil
            | cons c' text' =>
                rw [redact_nil, redact_cons hpass'] at h
                cases h
        | cons c text =>
            cases text' with
            | nil =>
                rw [redact_nil, redact_cons hpass] at h
                cases h
            | cons c' text' =>
                rw [redact_cons hpass, redact_cons hpass'] at h
                obtain ⟨rfl, htail⟩ := List.cons.inj h
                have hless : text.length < length := by
                  rw [← hlength]
                  exact Nat.lt_succ_self _
                exact .same hpass hpass' (ih text.length hless htail rfl)

/-! ### A command line in a message -/

/-- The text ends inside the word of a `PASS `, so that what follows belongs to
this word. -/
def endsInWord (text : Bytes) : Bool :=
  if _h : kPassword <+: text then
    if afterWord (text.drop 5) = [] then true else endsInWord (afterWord (text.drop 5))
  else
    match text with
    | [] => false
    | _ :: rest => endsInWord rest
termination_by text.length
decreasing_by
  · have hle := _h.length_le
    have hdrop := afterWord_length (text.drop 5)
    rw [List.length_drop] at hdrop
    have hfive : kPassword.length = 5 := rfl
    omega
  · exact Nat.lt_succ_self _

theorem endsInWord_nil : endsInWord [] = false := by
  unfold endsInWord
  rfl

theorem endsInWord_pass (text : Bytes) :
    endsInWord (kPassword ++ text) =
      if afterWord text = [] then true else endsInWord (afterWord text) := by
  have hdrop : (kPassword ++ text).drop 5 = text := rfl
  rw [endsInWord.eq_def, dif_pos (List.prefix_append _ _), hdrop]

theorem endsInWord_cons {c : UInt8} {rest : Bytes} (h : ¬kPassword <+: c :: rest) :
    endsInWord (c :: rest) = endsInWord rest := by
  rw [endsInWord.eq_def, dif_neg h]

/-- A `PASS ` does not overlap with another. -/
theorem not_pass_append {front rest : Bytes} (hne : front ≠ []) (h : ¬kPassword <+: front) :
    ¬kPassword <+: front ++ (kPassword ++ rest) := by
  intro hpass
  by_cases hlong : 5 ≤ front.length
  · exact h (List.prefix_of_prefix_length_le hpass (List.prefix_append _ _) hlong)
  · -- the letter of `PASS ` after `front` would be its first one
    have hpos := List.length_pos_of_ne_nil hne
    have hoccurs : OccursAt kPassword (front ++ (kPassword ++ rest)) 0 := hpass
    have hletter := hoccurs.getElem? (show front.length < kPassword.length from Nat.not_le.mp hlong)
    rw [Nat.zero_add, List.getElem?_append_right (Nat.le_refl _), Nat.sub_self] at hletter
    have hfirst : ∀ n < 5, 0 < n → kPassword[n]? ≠ some 80 := by decide
    exact hfirst front.length (Nat.not_le.mp hlong) hpos hletter.symm

theorem afterWord_append {text rest : Bytes} (h : afterWord text ≠ []) :
    afterWord (text ++ rest) = afterWord text ++ rest := by
  rw [afterWord, afterWord, List.dropWhile_append, if_neg]
  rwa [List.isEmpty_iff]

theorem afterWord_append_of_nil {text rest : Bytes} (h : afterWord text = []) :
    afterWord (text ++ rest) = afterWord rest := by
  rw [afterWord, afterWord, List.dropWhile_append, if_pos]
  rwa [List.isEmpty_iff]

/-- **A `PASS ` after a text** starts a word of its own, or belongs to the word
that the text ends in. -/
theorem redact_line (before rest : Bytes) :
    redact (before ++ (kPassword ++ rest)) =
      if endsInWord before then redact before ++ 32 :: redact rest
      else redact before ++ (kPassword ++ redacted ++ redact (afterWord rest)) := by
  induction hlength : before.length using Nat.strong_induction_on generalizing before with
  | h length ih =>
      by_cases hpass : kPassword <+: before
      · obtain ⟨tail, rfl⟩ := hpass
        rw [List.append_assoc, redact_pass, endsInWord_pass, redact_pass]
        by_cases hend : afterWord tail = []
        · have hblank : afterWord (kPassword ++ rest) = 32 :: rest := rfl
          have hnot : ¬kPassword <+: 32 :: rest := by
            intro hprefix
            cases (List.cons_prefix_cons.mp hprefix).1
          rw [if_pos hend, if_pos rfl, afterWord_append_of_nil hend, hblank, redact_cons hnot, hend,
            redact_nil, List.append_nil]
        · have hword := afterWord_length tail
          have hfive : (kPassword ++ tail).length = 5 + tail.length := by
            rw [List.length_append]
            rfl
          rw [if_neg hend, afterWord_append hend, ih (afterWord tail).length (by omega) _ rfl]
          split
          · simp only [List.append_assoc]
          · simp only [List.append_assoc]
      · cases before with
        | nil => rw [List.nil_append, redact_pass, endsInWord_nil, redact_nil]; rfl
        | cons c before =>
            have hjoined : ¬kPassword <+: c :: (before ++ (kPassword ++ rest)) :=
              not_pass_append (List.cons_ne_nil c before) hpass
            have hless : before.length < length := by
              rw [← hlength]
              exact Nat.lt_succ_self _
            rw [List.cons_append, redact_cons hjoined, endsInWord_cons hpass, redact_cons hpass,
              ih before.length hless before rfl]
            split
            · rfl
            · rfl

/-- A message with a command line in it. -/
def passMessage (before secret after : Bytes) : Bytes :=
  before ++ (kPassword ++ (secret ++ after))

/-- What stays of the argument and of what follows it. -/
def visible (before rest : Bytes) : Bytes := if endsInWord before then rest else afterWord rest

/-- **Passwords in messages**: the two messages are sanitized to the same one
exactly if what stays of the secrets is alike. -/
theorem sanitizeMessage_eq_iff (before secret secret' after : Bytes) :
    sanitizeMessage (passMessage before secret after) =
        sanitizeMessage (passMessage before secret' after) ↔
      Alike (visible before (secret ++ after)) (visible before (secret' ++ after)) := by
  rw [sanitizeMessage_eq, sanitizeMessage_eq, passMessage, passMessage, redact_line, redact_line,
    visible, visible, ← redact_eq_iff]
  cases endsInWord before with
  | true =>
      simp only [if_true, List.append_cancel_left_eq, List.cons.injEq, true_and]
  | false =>
      simp only [Bool.false_eq_true, if_false, List.append_cancel_left_eq]

/-- A secret without a blank leaves nothing of itself. -/
theorem sanitizeMessage_of_word {before secret secret' after : Bytes}
    (hbefore : endsInWord before = false) (h : secret.all inSecret = true)
    (h' : secret'.all inSecret = true) :
    sanitizeMessage (passMessage before secret after) =
      sanitizeMessage (passMessage before secret' after) := by
  have hgone : ∀ word : Bytes, word.all inSecret = true →
      visible before (word ++ after) = afterWord after := by
    intro word hword
    have hnil : afterWord word = [] := List.dropWhile_eq_nil_iff.mpr (List.all_eq_true.mp hword)
    rw [visible, hbefore, if_neg Bool.false_ne_true, afterWord_append_of_nil hnil]
  rw [sanitizeMessage_eq_iff, hgone secret h, hgone secret' h']
  exact redact_eq_iff.mp rfl

/-- What the parser yields as the argument of this command line. -/
def PassArgument (secret : Bytes) : Prop :=
  ∃ command, parseControlCommand (kPassword ++ secret) = .ok command ∧
    command.type = .pass ∧ command.argument = secret

theorem sanitizeMessage_leaks :
    PassArgument (ascii "a b") ∧ PassArgument (ascii "a c") ∧
      sanitizeMessage (passMessage [] (ascii "a b") []) ≠
        sanitizeMessage (passMessage [] (ascii "a c") []) :=
  ⟨⟨⟨.pass, ascii "PASS", ascii "a b", 0, []⟩, by decide +kernel, rfl, rfl⟩,
    ⟨⟨.pass, ascii "PASS", ascii "a c", 0, []⟩, by decide +kernel, rfl, rfl⟩, by decide +kernel⟩

end GridFlux
