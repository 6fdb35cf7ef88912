import Accelerator.Flags
import Accelerator.Proofs.Text.Numerals
import Mathlib.Data.List.Nodup
import Mathlib.Data.List.TakeWhile
import Mathlib.Data.Nat.Bitwise

/-!
# Masks are read back

The text of a mask names the flags that are set and gives the bits without a name as a number.
Reading it gives the mask again, whatever its bits, as long as the flags can be told apart: no two
names are equal, no name looks like a number or has a blank or bar in it, and each flag is a
single bit. A flag of two bits would lose the one that is set when the other is not.

## What is asked of the flags

`Flags.Readable` is what the two masks have in common, and all that reading back needs. It is a
condition on a list of names and bits and is settled by evaluation for each of the two, so a flag
that is added to a mask is checked without a new proof.

## Main definitions

* `Text.Plain`: a text that can stand between bars.
* `Flags.Readable`: the flags of a mask can be told apart in its text.
* `Flags.words`: the words of a mask's text.

## Main results

* `Text.map_trim_split_intercalate`: words set apart by bars are found between the bars.
* `Flags.named_or_rest`: a mask is its named bits and the others.
* `Flags.Readable.ofText?_text`: reading inverts writing.
* `Features.readable_names`, `GlobalFlags.readable_names`: the two masks can be read back.
-/

namespace Accelerator

theorem find?_eq_some_of_unique {α : Type} {p : α → Bool} {xs : List α} {x : α} (hx : x ∈ xs)
    (hp : p x = true) (unique : ∀ y ∈ xs, p y = true → y = x) : xs.find? p = some x := by
  cases search : xs.find? p with
  | none => exact absurd hp (by simpa using List.find?_eq_none.1 search x hx)
  | some y =>
    rw [unique y (List.mem_of_find?_eq_some search) (List.find?_some search)]

namespace Text

theorem split_eq_splitOn (c : Char) (cs : List Char) : split c cs = cs.splitOn c := by
  induction cs with
  | nil => simp [split]
  | cons d rest ih =>
    rw [split, List.splitOn_cons_eq_if_modifyHead, ih]
    simp only [beq_iff_eq]
    split
    · rfl
    · cases h : rest.splitOn c with
      | nil => exact absurd h (List.splitOn_ne_nil c rest)
      | cons piece pieces => rfl

/-- A text that can stand between bars: it is not empty, and neither blanks nor bars are in it. -/
structure Plain (cs : List Char) : Prop where
  ne_nil : cs ≠ []
  solid : ∀ c ∈ cs, isBlank c = false
  unbarred : '|' ∉ cs

theorem plain_iff {cs : List Char} :
    Plain cs ↔ (!cs.isEmpty && cs.all fun c => !isBlank c && c != '|') = true := by
  simp only [Bool.and_eq_true, Bool.not_eq_true', List.isEmpty_eq_false_iff, List.all_eq_true,
    bne_iff_ne]
  exact ⟨fun h => ⟨h.ne_nil, fun c hc => ⟨h.solid c hc, fun bar => h.unbarred (bar ▸ hc)⟩⟩,
    fun h => ⟨h.1, fun c hc => (h.2 c hc).1, fun bar => (h.2 _ bar).2 rfl⟩⟩

instance (cs : List Char) : Decidable (Plain cs) :=
  decidable_of_iff _ plain_iff.symm

theorem dropWhile_solid {cs : List Char} (rest : List Char) (hne : cs ≠ [])
    (h : ∀ c ∈ cs, isBlank c = false) : (cs ++ rest).dropWhile isBlank = cs ++ rest := by
  cases cs with
  | nil => exact absurd rfl hne
  | cons c cs => simp [h c (by simp)]

/-- Blanks around a word are trimmed, and nothing of the word. -/
theorem Plain.trim_padded {word : List Char} (h : Plain word) (before after : List Char)
    (hbefore : ∀ c ∈ before, isBlank c = true) (hafter : ∀ c ∈ after, isBlank c = true) :
    trim (before ++ (word ++ after)) = word := by
  have front : (before ++ (word ++ after)).dropWhile isBlank = word ++ after := by
    rw [List.dropWhile_append_of_pos hbefore, dropWhile_solid after h.ne_nil h.solid]
  have back : (word ++ after).reverse.dropWhile isBlank = word.reverse := by
    have solid : ∀ c ∈ word.reverse, isBlank c = false := by simpa using h.solid
    have kept := dropWhile_solid [] (List.reverse_ne_nil_iff.2 h.ne_nil) solid
    rw [List.append_nil] at kept
    rw [List.reverse_append, List.dropWhile_append_of_pos (by simpa using hafter), kept]
  rw [trim, front, back, List.reverse_reverse]

/-- A blank in front of a text is trimmed with the first piece. -/
theorem map_trim_split_blank {c separator : Char} (hc : isBlank c = true) (hne : c ≠ separator)
    (cs : List Char) :
    (split separator (c :: cs)).map trim = (split separator cs).map trim := by
  rw [split_eq_splitOn, split_eq_splitOn, List.splitOn_cons_eq_if_modifyHead]
  rw [if_neg (by simpa using hne)]
  cases cs.splitOn separator with
  | nil => rfl
  | cons piece pieces => simp [trim, hc]

/-- Words set apart by bars with blanks around them are the pieces between the bars. -/
theorem map_trim_split_intercalate {words : List (List Char)} (hne : words ≠ [])
    (h : ∀ word ∈ words, Plain word) :
    (split '|' ([' ', '|', ' '].intercalate words)).map trim = words := by
  induction words with
  | nil => exact absurd rfl hne
  | cons word rest ih =>
    have hw := h word (by simp)
    cases rest with
    | nil =>
      have whole := hw.trim_padded [] [] (by simp) (by simp)
      simp only [List.nil_append, List.append_nil] at whole
      simp [split_eq_splitOn, List.splitOn_eq_singleton hw.unbarred, whole]
    | cons next rest =>
      have bar : '|' ∉ word ++ [' '] := by simpa using hw.unbarred
      -- The blank before the bar stays with the first word, the blank behind it with the others.
      have first := hw.trim_padded [] [' '] (by simp) (by simp [isBlank])
      have parted : [' ', '|', ' '].intercalate (word :: next :: rest)
          = (word ++ [' ']) ++ '|' :: ' ' :: [' ', '|', ' '].intercalate (next :: rest) := by
        simp [List.intercalate_cons_cons]
      rw [parted, split_eq_splitOn, List.splitOn_append_cons_self_of_not_mem bar, List.map_cons,
        ← split_eq_splitOn, map_trim_split_blank (by decide) (by decide),
        ih (by simp) fun w hmem => h w (List.mem_cons_of_mem _ hmem)]
      simpa using first

theorem mem_dropWhile_solid {c : Char} {cs : List Char} (hmem : c ∈ cs)
    (hc : isBlank c = false) : c ∈ cs.dropWhile isBlank := by
  rw [← List.takeWhile_append_dropWhile (p := isBlank) (l := cs), List.mem_append] at hmem
  rcases hmem with taken | kept
  · simp [List.mem_takeWhile_imp taken] at hc
  · exact kept

theorem mem_trim {c : Char} {cs : List Char} (hmem : c ∈ cs) (hc : isBlank c = false) :
    c ∈ trim cs := by
  rw [trim, List.mem_reverse]
  exact mem_dropWhile_solid (List.mem_reverse.2 (mem_dropWhile_solid hmem hc)) hc

theorem trim_intercalate_ne_nil {words : List (List Char)} (hne : words ≠ [])
    (h : ∀ word ∈ words, Plain word) : trim ([' ', '|', ' '].intercalate words) ≠ [] := by
  cases words with
  | nil => exact absurd rfl hne
  | cons word rest =>
    have hw := h word (by simp)
    obtain ⟨c, hc⟩ := List.exists_mem_of_ne_nil word hw.ne_nil
    have within : c ∈ [' ', '|', ' '].intercalate (word :: rest) := by
      cases rest with
      | nil => simpa using hc
      | cons next rest => simp [List.intercalate_cons_cons, hc]
    exact List.ne_nil_of_mem (mem_trim within (hw.solid c hc))

end Text

namespace Flags

variable {names : Names}

/-- The flags of a mask can be told apart in its text: each is one bit, and its name is a word
that is not taken for a number and that no other flag has. -/
structure Readable (names : Names) : Prop where
  single : ∀ flag ∈ names, ∃ k < 32, flag.2.toNat = 2 ^ k
  plain : ∀ flag ∈ names, Text.Plain flag.1.toList
  unmarked : ∀ flag ∈ names, flag.1.toList.head? ≠ some '0'
  distinct : (names.map Prod.fst).Nodup

/-! ### The words of a mask's text -/

/-- The words of a mask's text: the names of the flags that are set, then the other bits. -/
def words (names : Names) (bits : UInt32) : List (List Char) :=
  (names.filter fun flag => contains bits flag.2).map (·.1.toList) ++
    if bits &&& ~~~(known names) = 0 then []
    else [(Word.hex (bits &&& ~~~(known names)).toNat).toList]

theorem toList_text (names : Names) (bits : UInt32) :
    (text names bits).toList = [' ', '|', ' '].intercalate (words names bits) := by
  simp only [text, words, String.toList_intercalate, List.map_append, List.map_map]
  split <;> rfl

theorem toList_hex (n : Nat) : (Word.hex n).toList = '0' :: 'x' :: Nat.toDigits 16 n := by
  simp [Word.hex, Word.hexDigits]

theorem plain_hex (n : Nat) : Text.Plain (Word.hex n).toList where
  ne_nil := by simp [toList_hex]
  solid := by
    have digits : ∀ d < 16, Text.isBlank (Nat.digitChar d) = false := by decide
    intro c hc
    simp only [toList_hex, List.mem_cons] at hc
    rcases hc with rfl | rfl | hc
    · decide
    · decide
    · obtain ⟨d, hd, rfl⟩ := Numeral.exists_digitChar (by decide) hc
      exact digits d hd
  unbarred := by
    have digits : ∀ d < 16, '|' ≠ Nat.digitChar d := by decide
    simp only [toList_hex, List.mem_cons, not_or]
    refine ⟨by decide, by decide, fun hc => ?_⟩
    obtain ⟨d, hd, same⟩ := Numeral.exists_digitChar (by decide) hc
    exact digits d hd same

theorem Readable.plain_of_mem_words (h : Readable names) {bits : UInt32} {word : List Char}
    (hmem : word ∈ words names bits) : Text.Plain word := by
  rcases List.mem_append.1 hmem with named | numeral
  · obtain ⟨flag, hflag, rfl⟩ := List.mem_map.1 named
    exact h.plain flag (List.mem_filter.1 hflag).1
  · split at numeral
    · simp at numeral
    · exact List.mem_singleton.1 numeral ▸ plain_hex _

/-! ### A mask as the sum of its words -/

/-- A flag of one bit meets a mask in the flag if it is set, and else in nothing. -/
theorem and_single {flag : UInt32} (bits : UInt32) (h : ∃ k < 32, flag.toNat = 2 ^ k) :
    bits &&& flag = if contains bits flag then flag else 0 := by
  obtain ⟨k, -, hk⟩ := h
  have value : (bits &&& flag).toNat = (bits.toNat.testBit k).toNat * 2 ^ k := by
    rw [UInt32.toNat_and, hk, Nat.and_two_pow]
  simp only [contains, beq_iff_eq]
  split
  · assumption
  · rename_i unset
    rw [← UInt32.toNat_inj, value, hk] at unset
    rw [← UInt32.toNat_inj, value]
    cases bit : bits.toNat.testBit k with
    | false => simp
    | true => simp [bit] at unset

theorem and_or_left (a b c : UInt32) : a &&& (b ||| c) = (a &&& b) ||| (a &&& c) := by
  rw [← UInt32.toNat_inj]
  simp [Nat.and_or_distrib_left]

/-- The flags that are set add up to the bits of the mask that have a name. -/
theorem foldl_contained (bits mask : UInt32) (h : ∀ flag ∈ names, ∃ k < 32, flag.2.toNat = 2 ^ k) :
    (names.filter fun flag => contains bits flag.2).foldl (fun m flag => m ||| flag.2)
        (bits &&& mask)
      = bits &&& names.foldl (fun m flag => m ||| flag.2) mask := by
  induction names generalizing mask with
  | nil => rfl
  | cons flag rest ih =>
    have next := ih (mask ||| flag.2) fun f hf => h f (List.mem_cons_of_mem _ hf)
    rw [and_or_left, and_single bits (h flag (by simp))] at next
    rw [List.foldl_cons, ← next]
    split <;> simp_all

theorem named_or_rest (h : ∀ flag ∈ names, ∃ k < 32, flag.2.toNat = 2 ^ k) (bits : UInt32) :
    (names.filter fun flag => contains bits flag.2).foldl (fun m flag => m ||| flag.2) 0
        ||| (bits &&& ~~~(known names))
      = bits := by
  have named := foldl_contained bits 0 h
  rw [UInt32.and_zero] at named
  rw [named, ← known, ← and_or_left, UInt32.or_not_self, UInt32.and_neg_one]

/-! ### Reading the words -/

theorem Readable.ofPiece?_name (h : Readable names) {flag : String × UInt32}
    (hmem : flag ∈ names) : ofPiece? names flag.1.toList = some flag.2 := by
  have found : names.find? (fun f => f.1.toList = flag.1.toList) = some flag := by
    refine find?_eq_some_of_unique hmem (by simp) fun f hf same => ?_
    exact List.inj_on_of_nodup_map h.distinct hf hmem
      (by simpa [String.toList_inj] using same)
  have unmarked := h.unmarked flag hmem
  rw [ofPiece?, found]
  · rfl
  · intro digits marked
    simp [marked] at unmarked

theorem ofPiece?_hex (n : UInt32) : ofPiece? names (Word.hex n.toNat).toList = some n := by
  have small : n.toNat ≤ UInt32.size - 1 := Nat.le_pred_of_lt n.toNat_lt_size
  rw [toList_hex, ofPiece?, Numeral.read?_toDigits (by decide) (by decide) small]
  simp

theorem Readable.foldlM_names (h : Readable names) {flags : Names} (hsub : ∀ f ∈ flags, f ∈ names)
    (acc : UInt32) :
    (flags.map (·.1.toList)).foldlM (fun bits word => (ofPiece? names word).map (bits ||| ·)) acc
      = some (flags.foldl (fun m flag => m ||| flag.2) acc) := by
  induction flags generalizing acc with
  | nil => rfl
  | cons flag rest ih =>
    have first := h.ofPiece?_name (hsub flag (by simp))
    have others := ih (fun f hf => hsub f (List.mem_cons_of_mem _ hf)) (acc ||| flag.2)
    simp [first, others]

theorem Readable.foldlM_words (h : Readable names) (bits : UInt32) :
    (words names bits).foldlM (fun mask word => (ofPiece? names word).map (mask ||| ·)) 0
      = some bits := by
  have total := named_or_rest h.single bits
  rw [words, List.foldlM_append, h.foldlM_names fun f hf => (List.mem_filter.1 hf).1]
  split
  · rename_i none
    rw [none, UInt32.or_zero] at total
    exact congrArg some total
  · simp only [Option.bind_eq_bind, Option.bind_some, List.foldlM_cons, ofPiece?_hex,
      Option.map_some, List.foldlM_nil, total]
    rfl

/-- A mask is read back from its text, bits without a name included. -/
theorem Readable.ofText?_text (h : Readable names) (bits : UInt32) :
    ofText? names (text names bits) = some bits := by
  have read := h.foldlM_words bits
  have plain : ∀ word ∈ words names bits, Text.Plain word := fun _ => h.plain_of_mem_words
  rw [ofText?, toList_text]
  by_cases hne : words names bits = []
  · rw [hne] at read ⊢
    simpa [Text.trim] using read
  · rw [if_neg (by simpa using Text.trim_intercalate_ne_nil hne plain)]
    calc (Text.split '|' ([' ', '|', ' '].intercalate (words names bits))).foldlM
          (fun mask piece => (ofPiece? names (Text.trim piece)).map (mask ||| ·)) 0
      _ = ((Text.split '|' ([' ', '|', ' '].intercalate (words names bits))).map Text.trim).foldlM
          (fun mask word => (ofPiece? names word).map (mask ||| ·)) 0 := by rw [List.foldlM_map]
      _ = some bits := by rw [Text.map_trim_split_intercalate hne plain, read]

end Flags

theorem Features.readable_names : Flags.Readable names where
  single := by decide
  plain := by decide
  unmarked := by decide
  distinct := by decide

theorem GlobalFlags.readable_names : Flags.Readable names where
  single := by decide
  plain := by decide
  unmarked := by decide
  distinct := by decide

/-- Bits that no flag of a region stands for are kept through the text of its mask. -/
example : Flags.text GlobalFlags.names 0x80000005 = "KERNARG | COARSE_GRAINED | 0x80000000" := by
  decide

end Accelerator
