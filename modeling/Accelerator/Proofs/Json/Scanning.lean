import Accelerator.Json.Text
import Accelerator.Proofs.Text.Numerals
import Mathlib.Data.List.Chain
import Mathlib.Data.List.TakeDrop
import Mathlib.Data.List.TakeWhile

/-!
# Tokens are read back from their text

Written tokens are scanned as the tokens they were written for, with any blanks before, between
and behind them. A string may spell any text: quotes, backslashes and control characters are
escaped, all others stand for themselves.

A word or a number does not show by itself that it is complete; only the next character does. So
two of them must not follow each other without a blank. In the text of a tree they never do.

## Tokens that are not finished

After its last character a number is still being scanned. That a token was read back can therefore
not be said by the state that scanning is in. `Json.Scan.Holds` says it by what may come: it holds
at the end of the text, and before any character that cannot go on with the token. All statements
about one token are made with it; later on it only matters whether a word or number comes next.

## Main definitions

* `Json.Number.Legible`, `Json.Token.Legible`: the characters of a number or token are read as it.
* `Json.Scan.Holds`: the tokens of a text that may end where scanning is.
* `Json.Gap`, `Json.layOut`: a text of tokens with blanks between them.
* `Json.Parted`: no word or number follows another at once.

## Main results

* `Json.Number.legible_ofNat`: natural numbers are legible.
* `Json.Scan.foldlM_escaped`: a string literal is read as the text it was written for.
* `Json.Scan.foldlM_chars`: one token; `Json.Scan.Holds.foldlM_layOut`: tokens with their blanks.
* `Json.Token.ofText?_layOut`: reading inverts writing.
-/

namespace Accelerator

namespace Json

open Scan (step)

/-! ### Legible tokens -/

/-- The characters of a number are read as the number. -/
structure Number.Legible (n : Number) : Prop where
  spelled : Number.ofChars? n.chars = some n
  begins : ∃ c ∈ n.chars.head?, c.isDigit = true ∨ c = '-'
  numeric : ∀ c ∈ n.chars, Scan.isNumeric c = true

theorem isDigit_of_mem_toDigits {n : Nat} : ∀ c ∈ Nat.toDigits 10 n, c.isDigit = true :=
  fun _ hc => Nat.isDigit_of_mem_toDigits (by decide) (by decide) hc

theorem Number.chars_ofNat (n : Nat) : (ofNat n).chars = Nat.toDigits 10 n := by
  simp [chars, ofNat]

theorem Number.ofChars?_toDigits (n : Nat) : ofChars? (Nat.toDigits 10 n) = some (ofNat n) := by
  have digits := isDigit_of_mem_toDigits (n := n)
  cases h : Nat.toDigits 10 n with
  | nil => exact absurd h Nat.toDigits_ne_nil
  | cons c rest =>
    have unsigned : c ≠ '-' := by
      rintro rfl
      exact absurd (digits '-' (by simp [h])) (by decide)
    have all : spanDigits (c :: rest) = (c :: rest, []) := by
      have taken : (c :: rest).takeWhile Char.isDigit = c :: rest :=
        List.takeWhile_eq_self_iff.2 (h ▸ digits)
      have dropped : (c :: rest).dropWhile Char.isDigit = [] :=
        List.dropWhile_eq_nil_iff.2 (h ▸ digits)
      rw [spanDigits, List.span_eq_takeWhile_dropWhile, taken, dropped]
    have proper : rest = [] ∨ c ≠ '0' := by
      by_cases hc : c = '0'
      · subst hc
        exact .inl (Numeral.eq_nil_of_toDigits_zero (by decide) (by decide) h)
      · exact .inr hc
    simp [ofChars?, unsigned, all, ofNat, h, guard, proper]

theorem Number.legible_ofNat (n : Nat) : (ofNat n).Legible where
  spelled := by rw [chars_ofNat, ofChars?_toDigits]
  begins := by
    rw [chars_ofNat]
    cases h : Nat.toDigits 10 n with
    | nil => exact absurd h Nat.toDigits_ne_nil
    | cons c rest => exact ⟨c, rfl, .inl (isDigit_of_mem_toDigits (n := n) c (by simp [h]))⟩
  numeric := by
    intro c hc
    rw [chars_ofNat] at hc
    simp [Scan.isNumeric, isDigit_of_mem_toDigits c hc]

/-- The token is read back from its characters. -/
def Token.Legible : Token → Prop
  | number n => n.Legible
  | _ => True

/-- A word or a number: only the character behind it shows that it is complete. -/
def Token.isOpen : Token → Bool
  | null | bool _ | number _ => true
  | _ => false

namespace Scan

/-! ### Where a text may end -/

variable {s : Scan} {ts : List Token} {t : Token}

/-- The character may go on with a word or number. -/
def continues (c : Char) : Bool :=
  c.isAlpha || isNumeric c

/-- The tokens that have been scanned, last first, when the text may end here. The last one may
still be a word or number in the middle of which scanning is, if it is complete as it stands. -/
structure Holds (s : Scan) (ts : List Token) : Prop where
  settle : s.settle = some ⟨ts, .between⟩
  follow : ∀ c, continues c = false → s.step c = (⟨ts, .between⟩ : Scan).begin c

theorem Holds.between : (⟨ts, .between⟩ : Scan).Holds ts where
  settle := rfl
  follow _ _ := rfl

theorem holds_word {letters : List Char} (h : ofWord? letters.reverse = some t) :
    (⟨ts, .word letters⟩ : Scan).Holds (t :: ts) := by
  have settled : (⟨ts, .word letters⟩ : Scan).settle = some ⟨t :: ts, .between⟩ := by
    simp [settle, h, push]
  refine ⟨settled, fun c hc => ?_⟩
  have ends : c.isAlpha = false := by
    simp only [continues, Bool.or_eq_false_iff] at hc
    exact hc.1
  simp [step, ends, settled]

theorem holds_number {chars : List Char} {n : Number} (h : Number.ofChars? chars.reverse = some n) :
    (⟨ts, .number chars⟩ : Scan).Holds (.number n :: ts) := by
  have settled : (⟨ts, .number chars⟩ : Scan).settle = some ⟨.number n :: ts, .between⟩ := by
    simp [settle, h, push]
  refine ⟨settled, fun c hc => ?_⟩
  have ends : isNumeric c = false := by
    simp only [continues, Bool.or_eq_false_iff] at hc
    exact hc.2
  simp [step, ends, settled]

/-! ### Numbers -/

theorem begin_number {c : Char} (h : c.isDigit = true ∨ c = '-') :
    s.begin c = some { s with mode := .number [c] } := by
  have apart : ∀ d : Char, d.isDigit = false → d ≠ '-' → c ≠ d := by
    rintro d hd hne rfl
    rcases h with h | h
    · simp [hd] at h
    · exact hne h
  have solid : isBlank c = false := by
    simp [isBlank, apart]
  rw [begin, if_neg (by simp [solid])]
  · simp [h]
  all_goals exact apart _ (by decide) (by decide)

theorem foldlM_number {cs acc : List Char} (h : ∀ c ∈ cs, isNumeric c = true) :
    cs.foldlM step ⟨ts, .number acc⟩ = some ⟨ts, .number (cs.reverse ++ acc)⟩ := by
  induction cs generalizing acc with
  | nil => rfl
  | cons c cs ih =>
    have first : step ⟨ts, .number acc⟩ c = some ⟨ts, .number (c :: acc)⟩ := by
      simp [step, h c (by simp)]
    rw [List.foldlM_cons, first]
    simpa using ih fun d hd => h d (List.mem_cons_of_mem _ hd)

/-- A legible number is taken in up to its last character, which may not be its end yet. -/
theorem foldlM_legible (ts : List Token) {n : Number} (legible : n.Legible) :
    ∃ chars, n.chars.foldlM step ⟨ts, .between⟩ = some ⟨ts, .number chars⟩ ∧
      Number.ofChars? chars.reverse = some n := by
  obtain ⟨c, first, starts⟩ := legible.begins
  cases h : n.chars with
  | nil => simp [h] at first
  | cons d cs =>
    obtain rfl : d = c := by simpa [h] using first
    have numeric : ∀ c ∈ cs, isNumeric c = true := fun c hc => legible.numeric c (by simp [h, hc])
    have begun : step ⟨ts, .between⟩ d = some ⟨ts, .number [d]⟩ := begin_number starts
    refine ⟨cs.reverse ++ [d], ?_, by simpa [← h] using legible.spelled⟩
    rw [List.foldlM_cons, begun]
    exact foldlM_number numeric

/-! ### String literals -/

/-- The piece stands for the character: it is the character, or the number of one that is written
by number, which is too small to be half of a surrogate pair. -/
def Spells (piece : Piece) (c : Char) : Prop :=
  piece = .char c ∨ (piece = .unit c.toNat ∧ c.toNat < 0x20)

theorem charsOfPieces?_cons {piece : Piece} {c : Char} (h : Spells piece c) (rest : List Piece) :
    charsOfPieces? (piece :: rest) = (charsOfPieces? rest).map (c :: ·) := by
  rcases h with rfl | ⟨rfl, small⟩
  · rw [charsOfPieces?]
  · have high : isHighSurrogate c.toNat = false := by
      simp only [isHighSurrogate, Bool.and_eq_false_iff, decide_eq_false_iff_not]
      omega
    have low : isLowSurrogate c.toNat = false := by
      simp only [isLowSurrogate, Bool.and_eq_false_iff, decide_eq_false_iff_not]
      omega
    cases rest with
    | nil => simp [charsOfPieces?, high, low]
    | cons next rest =>
      cases next <;> simp [charsOfPieces?, high, low]

/-- A character of a string literal is read as one piece that stands for it. -/
theorem foldlM_escapeChar (ts : List Token) (c : Char) (pieces : List Piece) :
    ∃ piece, Spells piece c ∧
      (escapeChar c).foldlM step ⟨ts, .string pieces⟩ = some ⟨ts, .string (piece :: pieces)⟩ := by
  unfold escapeChar
  split
  case h_8 quote backslash _ _ _ _ _ =>
    by_cases control : c.toNat < 0x20
    · have upper : Numeral.digit? 16 (hexDigit (c.toNat / 16)) = some (c.toNat / 16) := by
        rw [hexDigit, Nat.mod_eq_of_lt (by omega)]
        exact Numeral.digit?_digitChar (by decide) (by omega)
      have lower : Numeral.digit? 16 (hexDigit c.toNat) = some (c.toNat % 16) :=
        Numeral.digit?_digitChar (by decide) (Nat.mod_lt _ (by decide))
      have zero : Numeral.digit? 16 '0' = some 0 := by decide
      refine ⟨.unit c.toNat, .inr ⟨rfl, control⟩, ?_⟩
      rw [if_pos control]
      simp [step, zero, upper, lower, Nat.div_add_mod']
    · refine ⟨.char c, .inl rfl, ?_⟩
      have plain : step ⟨ts, .string pieces⟩ c = some ⟨ts, .string (.char c :: pieces)⟩ := by
        simp only [step]
        rw [if_neg quote, if_neg backslash, if_neg control]
      simp [if_neg control, plain]
  all_goals exact ⟨_, .inl rfl, rfl⟩

/-- The characters of a text in a string literal are read as pieces that spell it. -/
theorem foldlM_escaped (ts : List Token) (cs : List Char) (pieces : List Piece) :
    ∃ read, charsOfPieces? read = some cs ∧
      (cs.flatMap escapeChar).foldlM step ⟨ts, .string pieces⟩
        = some ⟨ts, .string (read.reverse ++ pieces)⟩ := by
  induction cs generalizing pieces with
  | nil => exact ⟨[], rfl, rfl⟩
  | cons c cs ih =>
    obtain ⟨piece, spells, first⟩ := foldlM_escapeChar ts c pieces
    obtain ⟨read, chars, rest⟩ := ih (piece :: pieces)
    refine ⟨piece :: read, ?_, ?_⟩
    · simp [charsOfPieces?_cons spells, chars]
    · simp [List.foldlM_append, first, rest]

/-- A string literal is read as the text it was written for, whatever characters are in it. -/
theorem foldlM_string (ts : List Token) (text : String) :
    (Token.chars (.string (some text))).foldlM step ⟨ts, .between⟩
      = some ⟨.string (some text) :: ts, .between⟩ := by
  obtain ⟨read, chars, scanned⟩ := foldlM_escaped ts text.toList []
  have opening : step ⟨ts, .between⟩ '"' = some ⟨ts, .string []⟩ := rfl
  have closing : step ⟨ts, .string read.reverse⟩ '"'
      = some ⟨.string (some text) :: ts, .between⟩ := by
    simp [step, chars, push]
  rw [List.append_nil] at scanned
  simp [Token.chars, opening, List.foldlM_append, scanned, closing]

/-! ### One token -/

/-- The characters of a legible token are scanned as the token. Unless it is a word or number,
nothing more is expected of it. -/
theorem foldlM_chars (ts : List Token) (legible : t.Legible) :
    ∃ s, t.chars.foldlM step ⟨ts, .between⟩ = some s ∧ s.Holds (t :: ts) ∧
      (t.isOpen = false → s = ⟨t :: ts, .between⟩) := by
  cases t with
  | openArray | closeArray | openObject | closeObject | comma | colon =>
    exact ⟨_, rfl, .between, fun _ => rfl⟩
  | null => exact ⟨⟨ts, .word ['l', 'l', 'u', 'n']⟩, rfl, holds_word rfl, nofun⟩
  | bool b =>
    cases b with
    | true => exact ⟨⟨ts, .word ['e', 'u', 'r', 't']⟩, rfl, holds_word rfl, nofun⟩
    | false => exact ⟨⟨ts, .word ['e', 's', 'l', 'a', 'f']⟩, rfl, holds_word rfl, nofun⟩
  | number n =>
    obtain ⟨chars, scanned, spelled⟩ := foldlM_legible ts legible
    exact ⟨_, scanned, holds_number spelled, nofun⟩
  | string text =>
    cases text with
    | none => exact ⟨⟨.string none :: ts, .between⟩, rfl, .between, fun _ => rfl⟩
    | some text => exact ⟨_, foldlM_string ts text, .between, fun _ => rfl⟩

/-! ### Tokens with blanks between them -/

theorem continues_of_isBlank {c : Char} (h : isBlank c = true) : continues c = false := by
  simp only [isBlank, Bool.or_eq_true, decide_eq_true_eq] at h
  rcases h with ((rfl | rfl) | rfl) | rfl <;> decide

theorem Holds.blank (h : s.Holds ts) {c : Char} (hc : isBlank c = true) :
    s.step c = some ⟨ts, .between⟩ := by
  rw [h.follow c (continues_of_isBlank hc)]
  unfold begin
  rw [if_pos hc]

theorem Holds.foldlM_blanks (h : s.Holds ts) {cs : List Char}
    (hcs : ∀ c ∈ cs, isBlank c = true) :
    ∃ s', cs.foldlM step s = some s' ∧ s'.Holds ts ∧
      (s = ⟨ts, .between⟩ → s' = ⟨ts, .between⟩) := by
  induction cs generalizing s with
  | nil => exact ⟨s, rfl, h, id⟩
  | cons c cs ih =>
    have first := h.blank (hcs c (by simp))
    obtain ⟨s', rest, holds, between⟩ := ih .between fun d hd => hcs d (List.mem_cons_of_mem _ hd)
    exact ⟨s', by simp [first, rest], holds, fun _ => between rfl⟩

/-- A token that is no word or number may follow any other at once. -/
theorem Holds.foldlM_chars (h : s.Holds ts) (closed : t.isOpen = false) :
    t.chars.foldlM step s = t.chars.foldlM step ⟨ts, .between⟩ := by
  have first : ∀ c cs, continues c = false →
      (c :: cs).foldlM step s = (c :: cs).foldlM step ⟨ts, .between⟩ := by
    intro c cs hc
    rw [List.foldlM_cons, List.foldlM_cons, h.follow c hc]
    rfl
  cases t with
  | null | bool b | number n => simp [Token.isOpen] at closed
  | string text => cases text <;> exact first _ _ (by decide)
  | _ => exact first _ _ (by decide)

end Scan

/-- Blanks that stand between tokens. -/
structure Gap where
  chars : List Char
  blank : ∀ c ∈ chars, Scan.isBlank c = true

/-- No blanks at all. -/
def Gap.none : Gap := ⟨[], by simp⟩

/-- The text of tokens with a gap before each of them and one behind the last. -/
def layOut (gap : Nat → Gap) : List Token → List Char
  | [] => (gap 0).chars
  | t :: ts => (gap 0).chars ++ (t.chars ++ layOut (fun n => gap (n + 1)) ts)

theorem layOut_none (ts : List Token) :
    layOut (fun _ => .none) ts = ts.flatMap Token.chars := by
  induction ts with
  | nil => rfl
  | cons t ts ih => rw [layOut, ih]; rfl

/-- No word or number follows another at once, so tokens can be told apart without blanks. -/
def Parted (ts : List Token) : Prop :=
  ts.IsChain fun t u => t.isOpen = true → u.isOpen = false

namespace Scan

/-- Tokens with their blanks are scanned one after the other. Where the first of them is a word or
number, scanning must not be in the middle of another. -/
theorem Holds.foldlM_layOut {s : Scan} {done ts : List Token} (gap : Nat → Gap) (h : s.Holds done)
    (fresh : ∀ t ∈ ts.head?, t.isOpen = true → s = ⟨done, .between⟩) (parted : Parted ts)
    (legible : ∀ t ∈ ts, t.Legible) :
    ∃ s', (layOut gap ts).foldlM step s = some s' ∧ s'.Holds (ts.reverse ++ done) := by
  induction ts generalizing gap s done with
  | nil =>
    obtain ⟨s', blanks, holds, -⟩ := h.foldlM_blanks (gap 0).blank
    exact ⟨s', blanks, holds⟩
  | cons t ts ih =>
    obtain ⟨s₁, blanks, holds₁, between⟩ := h.foldlM_blanks (gap 0).blank
    obtain ⟨s₂, scanned, holds₂, complete⟩ :=
      Scan.foldlM_chars done (legible t (by simp))
    have chars : t.chars.foldlM step s₁ = some s₂ := by
      cases kind : t.isOpen with
      | false => rw [holds₁.foldlM_chars kind, scanned]
      | true => rw [between (fresh t rfl kind), scanned]
    have next : ∀ u ∈ ts.head?, u.isOpen = true → s₂ = ⟨t :: done, .between⟩ := by
      intro u hu opens
      refine complete (Bool.eq_false_iff.2 fun was => ?_)
      simp [parted.rel_head? hu was] at opens
    obtain ⟨s₃, rest, holds₃⟩ := ih (fun n => gap (n + 1)) holds₂ next (List.IsChain.tail parted)
      fun u hu => legible u (List.mem_cons_of_mem _ hu)
    refine ⟨s₃, ?_, by simpa using holds₃⟩
    simp [layOut, List.foldlM_append, blanks, chars, rest]

end Scan

/-- Tokens are read back from their text, whatever blanks stand between them. -/
theorem Token.ofText?_layOut {ts : List Token} (gap : Nat → Gap) (parted : Parted ts)
    (legible : ∀ t ∈ ts, t.Legible) : Token.ofText? (layOut gap ts) = some ts := by
  obtain ⟨s, scanned, holds⟩ :=
    Scan.Holds.between.foldlM_layOut gap (fun _ _ _ => rfl) parted legible
  have begun : (layOut gap ts).foldlM step Scan.start = some s := scanned
  simp [Token.ofText?, begun, holds.settle]

/-- Without a blank between them, two numbers are one. -/
example : Token.ofText? ['1', '2', ' ', '3'] = some [.number (.ofNat 12), .number (.ofNat 3)] := by
  decide

end Json

end Accelerator
