import Mathlib.Data.List.Basic
import ConsumerGroups.Proofs.Json.Grammar

/-! # Reading the tokens of a spelling

Every spelling of a text or a numeral is read as its token, and reading stops where the spelling
ends. For a numeral that takes something after it that cannot belong to it.
-/

namespace ConsumerGroups.Json

/-- An input that starts with some tokens, and what follows them. -/
def Lexes (input : List Char) (tokens : List Token) (rest : List Char) : Prop :=
  tokens? input = (tokens? rest).map (tokens ++ ·)

theorem Lexes.append {input middle rest : List Char} {first second : List Token}
    (hfirst : Lexes input first middle) (hsecond : Lexes middle second rest) :
    Lexes input (first ++ second) rest := by
  rw [Lexes, hfirst, hsecond, Option.map_map]
  simp [Function.comp_def]

/-! ## Blanks -/

theorem tokens?_of_blank {c : Char} (hblank : isBlank c = true) (rest : List Char) :
    tokens? (c :: rest) = tokens? rest := by
  rw [tokens?, if_pos hblank]

/-- Blanks are passed over. -/
theorem Blanks.lexes {input rest : List Char} (hblanks : Blanks input rest) :
    Lexes input [] rest := by
  induction hblanks with
  | done => simp [Lexes]
  | more hblank _ ih =>
      rw [Lexes, tokens?_of_blank _ _, ih]
      rcases hblank with rfl | rfl | rfl | rfl <;> rfl

/-- No token starts with a blank. -/
theorem readToken?_of_blank {c : Char} (hblank : isBlank c = true) (rest : List Char) :
    readToken? (c :: rest) = none := by
  have hcases : c = ' ' ∨ c = '\t' ∨ c = '\n' ∨ c = '\r' := by
    simpa [isBlank, or_assoc] using hblank
  rcases hcases with rfl | rfl | rfl | rfl <;>
    simp [readToken?, readUnsigned?, readWhole?, readDigits?]

/-- A token that is read at the start of an input is the first of its tokens. -/
theorem Lexes.of_readToken? {input rest : List Char} {token : Token}
    (hread : readToken? input = some (token, rest)) : Lexes input [token] rest := by
  cases input with
  | nil => cases hread
  | cons c tail =>
      have hblank : isBlank c = false := by
        cases hblank : isBlank c with
        | false => rfl
        | true =>
            rw [readToken?_of_blank hblank] at hread
            cases hread
      rw [Lexes, tokens?, hblank]
      simp only [Bool.false_eq_true, if_false]
      split
      · simp_all
      · simp_all

/-! ## Texts -/

theorem hexDigit?_eq {c : Char} {value : Nat} (hdigit : IsHexDigit c value) :
    hexDigit? c = some value := by
  have hall : ∀ value < 16, hexDigit? (Nat.digitChar value) = some value ∧
      hexDigit? (Nat.digitChar value).toUpper = some value := by decide
  obtain ⟨hvalue, rfl | rfl⟩ := hdigit
  · exact (hall value hvalue).1
  · exact (hall value hvalue).2

theorem escaped?_eq {letter c : Char} (hescape : (letter, c) ∈ shortEscapes) :
    escaped? letter = some c ∧ letter ≠ 'u' := by
  simp only [shortEscapes, List.mem_cons, Prod.mk.injEq, List.not_mem_nil, or_false] at hescape
  rcases hescape with ⟨rfl, rfl⟩ | ⟨rfl, rfl⟩ | ⟨rfl, rfl⟩ | ⟨rfl, rfl⟩ | ⟨rfl, rfl⟩ | ⟨rfl, rfl⟩ |
    ⟨rfl, rfl⟩ | ⟨rfl, rfl⟩ <;> exact ⟨rfl, by decide⟩

/-- The pieces of a text are read up to its closing quote. -/
theorem Pieces.readPieces?_eq {input rest : List Char} {pieces : List Piece}
    (hpieces : Pieces input pieces rest) : readPieces? input = some (pieces, rest) := by
  induction hpieces with
  | close => rfl
  | plain hprint hquote hslash _ ih =>
      rw [readPieces?.eq_def]
      split <;> simp_all
  | short hescape _ ih =>
      obtain ⟨hc, hu⟩ := escaped?_eq hescape
      rw [readPieces?.eq_def]
      split <;> grind
  | unit ha hb hc hd _ ih =>
      rw [readPieces?, hexUnit?, hexDigit?_eq ha, hexDigit?_eq hb, hexDigit?_eq hc, hexDigit?_eq hd]
      simp [ih]
      omega

theorem StandFor.joinPieces?_eq {pieces : List Piece} {chars : List Char}
    (hchars : StandFor pieces chars) : joinPieces? none pieces = some chars := by
  induction hchars with
  | nil => rfl
  | char _ ih => rw [joinPieces?, ih]; rfl
  | @unit code _ _ hcode _ ih =>
      have hhigh : isHighSurrogate code = false := by simp [isHighSurrogate]; omega
      have hlow : isLowSurrogate code = false := by simp [isLowSurrogate]; omega
      simp [joinPieces?, hhigh, hlow, ih]
  | @pair high low _ _ hhigh hlow _ ih =>
      have hfirst : isHighSurrogate high = true := by simp [isHighSurrogate]; omega
      have hsecond : isLowSurrogate low = true := by simp [isLowSurrogate]; omega
      simp [joinPieces?, hfirst, hsecond, ih]

/-- Whatever is made of pieces is what they stand for, with the half of a character before them
if there is one. -/
theorem standFor_of_joinPieces? {half : Option Nat} {pieces : List Piece} {chars : List Char}
    (hjoin : joinPieces? half pieces = some chars)
    (hhalf : ∀ high ∈ half, 0xD800 ≤ high ∧ high < 0xDC00) :
    StandFor (half.toList.map .unit ++ pieces) chars := by
  fun_induction joinPieces? half pieces generalizing chars with
  | case1 =>
      cases hjoin
      exact .nil
  | case2 => cases hjoin
  | case3 c rest ih =>
      obtain ⟨more, hmore, rfl⟩ := Option.map_eq_some_iff.mp hjoin
      exact .char (ih hmore nofun)
  | case4 => cases hjoin
  | case5 code rest hhigh ih =>
      have hbounds : 0xD800 ≤ code ∧ code < 0xDC00 := by simpa [isHighSurrogate] using hhigh
      exact ih hjoin fun high hsome => Option.some.inj hsome ▸ hbounds
  | case6 => cases hjoin
  | case7 code rest hhigh hlow ih =>
      obtain ⟨more, hmore, rfl⟩ := Option.map_eq_some_iff.mp hjoin
      refine .unit ?_ (ih hmore nofun)
      simp only [isHighSurrogate, isLowSurrogate, Bool.and_eq_true, decide_eq_true_eq] at hhigh hlow
      omega
  | case8 high low rest hlow c =>
      rename_i ih
      obtain ⟨more, hmore, rfl⟩ := Option.map_eq_some_iff.mp hjoin
      have hbounds : 0xDC00 ≤ low ∧ low < 0xE000 := by simpa [isLowSurrogate] using hlow
      exact .pair (hhalf high rfl) hbounds (ih hmore nofun)
  | case9 => cases hjoin

/-- A text is read with its content. -/
theorem Text.lexes {input rest : List Char} {content : Option String}
    (htext : Text input content rest) : Lexes input [.text content] rest := by
  apply Lexes.of_readToken?
  cases htext with
  | proper hpieces hcontent =>
      simp [readToken?, readText?, hpieces.readPieces?_eq, hcontent.joinPieces?_eq]
  | @broken _ _ pieces hpieces hcontent =>
      have hnone : joinPieces? none pieces = none := by
        cases hjoin : joinPieces? none pieces with
        | none => rfl
        | some chars => exact absurd (standFor_of_joinPieces? hjoin (by simp)) (hcontent chars)
      simp [readToken?, readText?, hpieces.readPieces?_eq, hnone]

/-! ## Numerals -/

/-- A continuation that cannot belong to a numeral before it. -/
def Stops (rest : List Char) : Prop :=
  ∀ c more, rest = c :: more → c.isDigit = false ∧ c ≠ '.' ∧ c ≠ 'e' ∧ c ≠ 'E'

/-- A continuation that does not go on with digits. -/
def NoDigit (rest : List Char) : Prop :=
  ∀ c more, rest = c :: more → c.isDigit = false

theorem readDigits?_append {digits rest : List Char} (hdigits : AreDigits digits)
    (hrest : NoDigit rest) : readDigits? (digits ++ rest) = some (digits, rest) := by
  have htake : (digits ++ rest).takeWhile Char.isDigit = digits := by
    rw [List.takeWhile_append_of_pos hdigits.2]
    cases rest with
    | nil => simp
    | cons c more => simp [hrest c more rfl]
  have hdrop : (digits ++ rest).dropWhile Char.isDigit = rest := by
    rw [List.dropWhile_append_of_pos hdigits.2]
    cases rest with
    | nil => rfl
    | cons c more => simp [hrest c more rfl]
  unfold readDigits?
  rw [htake, hdrop]
  cases digits with
  | nil => exact absurd rfl hdigits.1
  | cons c more => rfl

theorem digitsValue_eq (digits : List Char) (value : Nat) :
    digits.foldl (fun value c => value * 10 + (c.toNat - '0'.toNat)) value =
      Nat.ofDigitChars 10 digits value := by
  induction digits generalizing value with
  | nil => rfl
  | cons c rest ih => rw [List.foldl_cons, ih, Nat.ofDigitChars_cons, Nat.mul_comm]

/-- Only zero starts with a zero. -/
theorem toDigits_of_pos {n : Nat} (hn : 0 < n) :
    ∃ c rest, Nat.toDigits 10 n = c :: rest ∧ c ≠ '0' := by
  induction n using Nat.strongRecOn with
  | ind n ih =>
      by_cases hsmall : n < 10
      · have hall : ∀ n < 10, 0 < n → Nat.digitChar n ≠ '0' := by decide
        exact ⟨_, [], Nat.toDigits_of_lt_base hsmall, hall n hsmall hn⟩
      · obtain ⟨c, rest, hdigits, hzero⟩ := ih (n / 10) (by omega) (by omega)
        exact ⟨c, rest ++ [(n % 10).digitChar],
          by rw [Nat.toDigits_of_base_le (by decide) (by omega), hdigits, List.cons_append], hzero⟩

theorem areDigits_toDigits (n : Nat) : AreDigits (Nat.toDigits 10 n) :=
  ⟨Nat.toDigits_ne_nil, fun _ hc => Nat.isDigit_of_mem_toDigits (by decide) (by decide) hc⟩

theorem readWhole?_append {n : Nat} {rest : List Char} (hrest : NoDigit rest) :
    readWhole? (Nat.toDigits 10 n ++ rest) = some (n, rest) := by
  rcases Nat.eq_zero_or_pos n with rfl | hpos
  · rfl
  · obtain ⟨c, more, hdigits, hzero⟩ := toDigits_of_pos hpos
    have hread := readDigits?_append (areDigits_toDigits n) hrest
    have hvalue : digitsValue (Nat.toDigits 10 n) = n := by
      rw [digitsValue, digitsValue_eq, Nat.ofDigitChars_toDigits (by decide) (by decide)]
    rw [readWhole?.eq_def]
    split
    · simp_all
    · simp only [hread, Option.map_some, hvalue]

theorem IsFraction.readFraction?_append {fraction rest : List Char} (hfraction : IsFraction fraction)
    (hrest : NoDigit rest) (hpoint : ∀ more, rest ≠ '.' :: more) :
    readFraction? (fraction ++ rest) = some (fraction, rest) := by
  cases hfraction with
  | absent =>
      unfold readFraction?
      split
      · simp_all
      · rfl
  | given hdigits => simp [readFraction?, readDigits?_append hdigits hrest]

theorem Stops.noDigit {rest : List Char} (hrest : Stops rest) : NoDigit rest :=
  fun c more hsome => (hrest c more hsome).1

theorem readSign_of_digits {digits : List Char} (hdigits : AreDigits digits) (rest : List Char) :
    readSign (digits ++ rest) = ([], digits ++ rest) := by
  obtain ⟨hsome, hall⟩ := hdigits
  cases digits with
  | nil => exact absurd rfl hsome
  | cons c more =>
      have hc : c.isDigit = true := hall c List.mem_cons_self
      rw [List.cons_append, readSign.eq_def]
      split <;> simp_all

theorem IsExponent.readExponent?_append {exponent rest : List Char}
    (hexponent : IsExponent exponent) (hrest : Stops rest) :
    readExponent? (exponent ++ rest) = some (exponent, rest) := by
  cases hexponent with
  | absent =>
      cases rest with
      | nil => rfl
      | cons c more =>
          obtain ⟨-, -, he, hE⟩ := hrest c more rfl
          simp [readExponent?, he, hE]
  | @given letter sign digits hletter hsign hdigits =>
      have hread : readSign (sign ++ (digits ++ rest)) = (sign, digits ++ rest) := by
        rcases hsign with rfl | rfl | rfl
        · exact readSign_of_digits hdigits rest
        · rfl
        · rfl
      simp [readExponent?, hletter, hread, readDigits?_append hdigits hrest.noDigit]

/-- An exponent starts with neither a digit nor a point. -/
theorem IsExponent.head {exponent rest : List Char} (hexponent : IsExponent exponent)
    (hrest : Stops rest) {c : Char} {more : List Char} (hhead : exponent ++ rest = c :: more) :
    c.isDigit = false ∧ c ≠ '.' := by
  cases hexponent with
  | absent =>
      obtain ⟨hdigit, hpoint, -⟩ := hrest c more hhead
      exact ⟨hdigit, hpoint⟩
  | given hletter hsign hdigits =>
      obtain ⟨rfl, -⟩ := List.cons.inj hhead
      rcases hletter with rfl | rfl <;> decide

/-- A fraction and an exponent do not start with a digit. -/
theorem IsTail.noDigit {tail rest : List Char} (htail : IsTail tail) (hrest : Stops rest) :
    NoDigit (tail ++ rest) := by
  obtain ⟨fraction, exponent, rfl, hfraction, hexponent⟩ := htail
  intro c more hhead
  rw [List.append_assoc] at hhead
  cases hfraction with
  | absent => exact (hexponent.head hrest hhead).1
  | given hdigits =>
      obtain ⟨rfl, -⟩ := List.cons.inj hhead
      decide

/-- A numeral after its sign is read with its fraction and exponent. -/
theorem readUnsigned?_append {tail rest : List Char} (htail : IsTail tail) (hrest : Stops rest)
    (negative : Bool) (whole : Nat) :
    readUnsigned? negative (Nat.toDigits 10 whole ++ (tail ++ rest)) =
      some (.number { negative, whole, tail }, rest) := by
  have hwhole := readWhole?_append (n := whole) (htail.noDigit hrest)
  obtain ⟨fraction, exponent, rfl, hfraction, hexponent⟩ := htail
  have hexp := hexponent.readExponent?_append hrest
  have hfrac := hfraction.readFraction?_append
    (fun c more hhead => (hexponent.head hrest hhead).1)
    (fun more hhead => (hexponent.head hrest hhead).2 rfl)
  rw [List.append_assoc] at hwhole
  simp [readUnsigned?, hwhole, hfrac, hexp]

/-- A token that starts with a digit is a numeral. -/
theorem readToken?_of_digit {c : Char} (hc : c.isDigit = true) (rest : List Char) :
    readToken? (c :: rest) = readUnsigned? false (c :: rest) := by
  rw [readToken?.eq_def]
  split <;> simp_all

/-- A numeral is read as a token of its own. -/
theorem IsTail.lexes {numeral : Numeral} {rest : List Char} (htail : IsTail numeral.tail)
    (hrest : Stops rest) :
    Lexes ((if numeral.negative then ['-'] else []) ++ Nat.toDigits 10 numeral.whole ++
      numeral.tail ++ rest) [.number numeral] rest := by
  apply Lexes.of_readToken?
  rcases numeral with ⟨negative, whole, tail⟩
  have hread := readUnsigned?_append htail hrest negative whole
  simp only [List.append_assoc] at hread ⊢
  cases negative with
  | true => exact hread
  | false =>
      obtain ⟨hsome, hall⟩ := areDigits_toDigits whole
      simp only [Bool.false_eq_true, if_false, List.nil_append]
      cases hdigits : Nat.toDigits 10 whole with
      | nil => exact absurd hdigits hsome
      | cons c more =>
          rw [hdigits] at hread hall
          rw [List.cons_append, readToken?_of_digit (hall c List.mem_cons_self)]
          exact hread

end ConsumerGroups.Json
