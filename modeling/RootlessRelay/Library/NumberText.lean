import Mathlib.Data.List.TakeWhile

/-!
# Integers as text

`intText` writes an integer in decimal, and `parseInt` reads a text as far as it
is a number: white space and a sign in front, `0x` for the radix 16, and then
digits. A text without a digit is not a number.

What is written is read back, and different integers have different texts. A
reader that stops at the first character it cannot use has no errors to report,
so the round trip needs only that nothing in front of the digits is taken for
white space, a sign or a radix.
-/

namespace NumberText

/-- A text, character by character. -/
abbrev Text := List Char

/-- An integer in decimal, with a minus sign if it is negative and nothing else
in front. -/
def intText : Int → Text
  | .ofNat n => Nat.toDigits 10 n
  | .negSucc n => '-' :: Nat.toDigits 10 (n + 1)

/-- White space and line ends, as a number may have them in front. -/
def isStrWhiteSpace (c : Char) : Bool :=
  c.toNat ∈ [9, 10, 11, 12, 13, 32, 0xa0, 0x1680, 0x2028, 0x2029, 0x202f, 0x205f, 0x3000, 0xfeff] ∨
    (0x2000 ≤ c.toNat ∧ c.toNat ≤ 0x200a)

/-- The sign in front, and what is behind it. Without a sign the number is
positive. -/
def takeSign : Text → Int × Text
  | '-' :: rest => (-1, rest)
  | '+' :: rest => (1, rest)
  | text => (1, text)

/-- The radix that the text starts with, and what is behind it. A leading zero
alone does not change the radix. -/
def takeRadix : Text → Nat × Text
  | '0' :: 'x' :: rest => (16, rest)
  | '0' :: 'X' :: rest => (16, rest)
  | text => (10, text)

/-- The value of a digit; what is none has a value above every radix. Letters
count on from ten, in either case. -/
def digitValue (c : Char) : Nat :=
  if c.isDigit then c.toNat - '0'.toNat
  else if c.isLower then c.toNat - 'a'.toNat + 10
  else if c.isUpper then c.toNat - 'A'.toNat + 10
  else 36

/-- Read the number at the front of a text. The text behind its digits is
ignored, and a text without a digit gives nothing. -/
def parseInt (text : Text) : Option Int :=
  let signed := takeSign (text.dropWhile isStrWhiteSpace)
  let number := takeRadix signed.2
  let digits := number.2.takeWhile fun c => digitValue c < number.1
  if digits = [] then none
  else some (signed.1 * (digits.foldl (fun value c => number.1 * value + digitValue c) 0 : Nat))

variable {c : Char} {text : Text}

theorem isDigit_bounds (h : c.isDigit = true) : 48 ≤ c.toNat ∧ c.toNat ≤ 57 :=
  Char.isDigit_iff_toNat.mp h

theorem digitValue_of_isDigit (h : c.isDigit = true) :
    digitValue c = c.toNat - '0'.toNat ∧ digitValue c < 10 := by
  have hvalue : digitValue c = c.toNat - '0'.toNat := if_pos h
  refine ⟨hvalue, ?_⟩
  obtain ⟨hlow, hhigh⟩ := isDigit_bounds h
  rw [hvalue]
  change c.toNat - 48 < 10
  omega

/-- A digit is neither white space nor a sign nor the letter of a radix, and no
dot. -/
theorem isDigit_plain (h : c.isDigit = true) :
    isStrWhiteSpace c = false ∧ c ≠ '-' ∧ c ≠ '+' ∧ c ≠ 'x' ∧ c ≠ 'X' ∧ c ≠ '.' := by
  refine ⟨?_, ?_, ?_, ?_, ?_, ?_⟩
  · obtain ⟨hlow, hhigh⟩ := isDigit_bounds h
    refine decide_eq_false ?_
    simp only [List.mem_cons, List.not_mem_nil, or_false]
    omega
  all_goals
    rintro rfl
    revert h
    decide

theorem takeSign_digits (h : ∀ c ∈ text, c.isDigit = true) : takeSign text = (1, text) := by
  unfold takeSign
  split
  · exact absurd rfl (isDigit_plain (h _ List.mem_cons_self)).2.1
  · exact absurd rfl (isDigit_plain (h _ List.mem_cons_self)).2.2.1
  · rfl

theorem takeRadix_digits (h : ∀ c ∈ text, c.isDigit = true) : takeRadix text = (10, text) := by
  unfold takeRadix
  split
  · exact absurd rfl (isDigit_plain (h 'x' (by simp))).2.2.2.1
  · exact absurd rfl (isDigit_plain (h 'X' (by simp))).2.2.2.2.1
  · rfl

theorem foldl_digits (h : ∀ c ∈ text, c.isDigit = true) (value : Nat) :
    text.foldl (fun value c => 10 * value + digitValue c) value = Nat.ofDigitChars 10 text value := by
  induction text generalizing value with
  | nil => rfl
  | cons c rest ih =>
      rw [List.foldl_cons, Nat.ofDigitChars_cons, ih fun d hd => h d (List.mem_cons_of_mem _ hd),
        (digitValue_of_isDigit (h c List.mem_cons_self)).1]

/-- Digits behind a sign are read as the number they write. White space in front
has been passed when the sign is looked for. -/
theorem parseInt_digits {sign : Int} (hne : text ≠ []) (h : ∀ c ∈ text, c.isDigit = true)
    {written : Text} (hspace : written.dropWhile isStrWhiteSpace = written)
    (hsign : takeSign written = (sign, text)) :
    parseInt written = some (sign * (Nat.ofDigitChars 10 text 0 : Nat)) := by
  have hall : text.takeWhile (fun c => decide (digitValue c < 10)) = text := by
    refine List.takeWhile_eq_self_iff.mpr fun c hc => ?_
    exact decide_eq_true (digitValue_of_isDigit (h c hc)).2
  unfold parseInt
  rw [hspace, hsign]
  dsimp only
  rw [takeRadix_digits h]
  dsimp only
  rw [hall, if_neg hne, foldl_digits h]

theorem isDigit_of_mem_toDigits {n : Nat} : ∀ c ∈ Nat.toDigits 10 n, c.isDigit = true :=
  fun _ hc => Nat.isDigit_of_mem_toDigits (by decide) (by decide) hc

/-- An integer is read back from its decimal text, with its sign. -/
theorem parseInt_intText (i : Int) : parseInt (intText i) = some i := by
  cases i with
  | ofNat n =>
      have hdigits := @isDigit_of_mem_toDigits n
      have hspace : (Nat.toDigits 10 n).dropWhile isStrWhiteSpace = Nat.toDigits 10 n := by
        obtain ⟨c, rest, hcons⟩ := List.exists_cons_of_ne_nil (@Nat.toDigits_ne_nil n 10)
        rw [hcons] at hdigits ⊢
        rw [List.dropWhile_cons_of_neg]
        rw [(isDigit_plain (hdigits c List.mem_cons_self)).1]
        exact Bool.false_ne_true
      rw [intText, parseInt_digits Nat.toDigits_ne_nil hdigits hspace (takeSign_digits hdigits),
        Nat.ofDigitChars_ten_toDigits, Int.one_mul]
      rfl
  | negSucc n =>
      have hspace : ('-' :: Nat.toDigits 10 (n + 1)).dropWhile isStrWhiteSpace =
          '-' :: Nat.toDigits 10 (n + 1) := by
        rw [List.dropWhile_cons_of_neg]
        decide
      rw [intText, parseInt_digits Nat.toDigits_ne_nil isDigit_of_mem_toDigits hspace rfl,
        Nat.ofDigitChars_ten_toDigits]
      congr 1
      omega

theorem intText_injective {i j : Int} (h : intText i = intText j) : i = j := by
  have hparsed := congrArg parseInt h
  rw [parseInt_intText, parseInt_intText] at hparsed
  exact Option.some.inj hparsed

/-- No dot is written, so a number can be followed by one. -/
theorem dot_not_mem_intText (i : Int) : '.' ∉ intText i := by
  have hdigits : ∀ n, '.' ∉ Nat.toDigits 10 n := fun n hmem =>
    (isDigit_plain (isDigit_of_mem_toDigits '.' hmem)).2.2.2.2.2 rfl
  cases i with
  | ofNat n => exact hdigits n
  | negSucc n =>
      rw [intText, List.mem_cons, not_or]
      exact ⟨by decide, hdigits (n + 1)⟩

end NumberText
