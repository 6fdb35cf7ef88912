import Accelerator.Proofs.Json.Scanning

/-!
# Trees are read back from their text

The tokens of a tree are read as the tree, and its text as its tokens, so a tree is read back from
its text. The condition is that its numbers are legible; the literals of natural numbers are.

Reading keeps the open containers on a stack. What reading a value does is told for any stack:
the value comes to stand in the innermost container, and the containers around it stay.

## First items

An array that has just been opened may end at once, one that has an item may not, so the parser
tells the two apart. The text of an item is read in the same way in both places; this is shown once
for items and once for members, and the induction goes over the rest of the list only.

## Main definitions

* `Json.Legible`: all numbers of a tree are legible.

## Main results

* `Json.parted_tokens`: the tokens of a tree can be told apart without blanks.
* `Json.foldlM_tokens`: the tokens of a value are read as the value, on any stack.
* `Json.ofText?_layOut`, `Json.ofText?_render`: reading inverts writing, with or without blanks.
-/

namespace Accelerator

namespace Json

/-! ### The tokens of a tree -/

theorem Parted.append_closed {ts us : List Token} {u : Token} (h : Parted ts)
    (closed : u.isOpen = false) (hu : Parted (u :: us)) : Parted (ts ++ u :: us) := by
  refine h.append hu fun x _ y hy _ => ?_
  obtain rfl : y = u := by simpa using hy.symm
  exact closed

theorem Parted.cons {t : Token} {ts : List Token} (h : Parted ts) (closed : t.isOpen = false) :
    Parted (t :: ts) :=
  List.IsChain.cons h fun _ _ opens => by simp [closed] at opens

-- A word or number is a whole value, and what follows a value in a container is a sign.
mutual

theorem parted_tokens : ∀ j : Json, Parted j.tokens
  | null | bool _ | number _ | string _ => by simp [tokens, Parted]
  | array items => by
    rw [tokens]
    exact (parted_itemTokens items).cons rfl
  | object members => by
    rw [tokens]
    exact (parted_memberTokens members).cons rfl

theorem parted_itemTokens : ∀ items : List Json, Parted (itemTokens items)
  | [] => by simp [itemTokens, Parted]
  | [item] => by
    rw [itemTokens]
    exact (parted_tokens item).append_closed rfl (by simp [Parted])
  | item :: next :: rest => by
    rw [itemTokens]
    exact (parted_tokens item).append_closed rfl ((parted_itemTokens (next :: rest)).cons rfl)

theorem parted_memberTokens : ∀ members : List (Literal × Json), Parted (memberTokens members)
  | [] => by simp [memberTokens, Parted]
  | [(name, value)] => by
    rw [memberTokens]
    exact (((parted_tokens value).append_closed rfl (by simp [Parted])).cons rfl).cons rfl
  | (name, value) :: next :: rest => by
    rw [memberTokens]
    exact (((parted_tokens value).append_closed rfl
      ((parted_memberTokens (next :: rest)).cons rfl)).cons rfl).cons rfl

end

/-- All numbers of the tree are legible. -/
def Legible (j : Json) : Prop :=
  ∀ t ∈ j.tokens, t.Legible

theorem legible_ofString (s : String) : (ofString s).Legible := by
  simp [Legible, ofString, tokens, Token.Legible]

theorem legible_bool (b : Bool) : (bool b).Legible := by
  simp [Legible, tokens, Token.Legible]

theorem legible_ofNat (n : Nat) : (ofNat n).Legible := by
  simp [Legible, ofNat, tokens, Token.Legible, Number.legible_ofNat]

theorem legible_itemTokens {items : List Json} (h : ∀ item ∈ items, item.Legible) :
    ∀ t ∈ itemTokens items, t.Legible := by
  induction items with
  | nil => simp [itemTokens, Token.Legible]
  | cons item rest ih =>
    have first := h item (by simp)
    have others := ih fun j hj => h j (List.mem_cons_of_mem _ hj)
    cases rest with
    | nil =>
      simp only [itemTokens, List.mem_append, List.mem_singleton]
      rintro t (ht | rfl)
      · exact first t ht
      · trivial
    | cons next rest =>
      simp only [itemTokens, List.mem_append, List.mem_cons]
      rintro t (ht | rfl | ht)
      · exact first t ht
      · trivial
      · exact others t ht

theorem legible_array {items : List Json} (h : ∀ item ∈ items, item.Legible) :
    (array items).Legible := by
  intro t ht
  rw [tokens, List.mem_cons] at ht
  rcases ht with rfl | ht
  · trivial
  · exact legible_itemTokens h t ht

theorem legible_memberTokens {members : List (Literal × Json)} (h : ∀ m ∈ members, m.2.Legible) :
    ∀ t ∈ memberTokens members, t.Legible := by
  induction members with
  | nil => simp [memberTokens, Token.Legible]
  | cons m rest ih =>
    have first := h m (by simp)
    have others := ih fun j hj => h j (List.mem_cons_of_mem _ hj)
    cases rest with
    | nil =>
      simp only [memberTokens, List.mem_append, List.mem_cons, List.not_mem_nil, or_false]
      rintro t (rfl | rfl | ht | rfl)
      any_goals trivial
      exact first t ht
    | cons next rest =>
      simp only [memberTokens, List.mem_append, List.mem_cons]
      rintro t (rfl | rfl | ht | rfl | ht)
      any_goals trivial
      · exact first t ht
      · exact others t ht

theorem legible_ofMembers {members : List (String × Json)} (h : ∀ m ∈ members, m.2.Legible) :
    (ofMembers members).Legible := by
  intro t ht
  rw [ofMembers, tokens, List.mem_cons] at ht
  rcases ht with rfl | ht
  · trivial
  · refine legible_memberTokens (fun m hm => ?_) t ht
    obtain ⟨named, hnamed, rfl⟩ := List.mem_map.1 hm
    exact h named hnamed

/-! ### The tree of tokens -/

open Parse

/-- The first token of an item does not end an array, so an array that has just begun reads the
item as any other array does. -/
theorem foldlM_firstItem (item : Json) (rest : List Json) (stack : List Frame) :
    (itemTokens (item :: rest)).foldlM Parse.step ⟨.array [] :: stack, .firstItem⟩
      = (itemTokens (item :: rest)).foldlM Parse.step ⟨.array [] :: stack, .value⟩ := by
  cases rest <;> cases item <;> rfl

/-- The same for the first member of an object. -/
theorem foldlM_firstName (m : Literal × Json) (rest : List (Literal × Json)) (stack : List Frame) :
    (memberTokens (m :: rest)).foldlM Parse.step ⟨.object [] none :: stack, .firstName⟩
      = (memberTokens (m :: rest)).foldlM Parse.step ⟨.object [] none :: stack, .name⟩ := by
  cases rest <;> rfl

-- The stack is arbitrary, so that the value of an item or member can be read with its container
-- on top; what the container holds already is arbitrary for the same reason.
mutual

/-- The tokens of a value are read as the value. -/
theorem foldlM_tokens : ∀ (j : Json) (stack : List Frame),
    j.tokens.foldlM Parse.step ⟨stack, .value⟩ = some (complete j stack)
  | null, _ | bool _, _ | number _, _ | string _, _ => by simp [tokens, Parse.step, Parse.begin]
  | array [], stack => by simp [tokens, itemTokens, Parse.step, Parse.begin]
  | array (item :: rest), stack => by
    have begun : Parse.step ⟨stack, .value⟩ .openArray = some ⟨.array [] :: stack, .firstItem⟩ := by
      simp [Parse.step, Parse.begin]
    have items := foldlM_itemTokens (item :: rest) (by simp) [] stack
    rw [← foldlM_firstItem] at items
    simpa [tokens, begun] using items
  | object [], stack => by simp [tokens, memberTokens, Parse.step, Parse.begin]
  | object (m :: rest), stack => by
    have begun : Parse.step ⟨stack, .value⟩ .openObject
        = some ⟨.object [] none :: stack, .firstName⟩ := by
      simp [Parse.step, Parse.begin]
    have members := foldlM_memberTokens (m :: rest) (by simp) [] none stack
    rw [← foldlM_firstName] at members
    simpa [tokens, begun] using members

/-- The items of an array and its end complete an array of what it holds already and the items. -/
theorem foldlM_itemTokens : ∀ items : List Json, items ≠ [] →
    ∀ (done : List Json) (stack : List Frame),
    (itemTokens items).foldlM Parse.step ⟨.array done :: stack, .value⟩
      = some (complete (.array (done.reverse ++ items)) stack)
  | [], h, _, _ => absurd rfl h
  | [item], _, done, stack => by
    rw [itemTokens, List.foldlM_append, foldlM_tokens item]
    simp [complete, Parse.step]
  | item :: next :: rest, _, done, stack => by
    rw [itemTokens, List.foldlM_append, foldlM_tokens item]
    have others := foldlM_itemTokens (next :: rest) (by simp) (item :: done) stack
    simp [complete, Parse.step, others]

/-- The members of an object and its end complete an object of what it holds already and the
members. -/
theorem foldlM_memberTokens : ∀ members : List (Literal × Json), members ≠ [] →
    ∀ (done : List (Literal × Json)) (was : Literal) (stack : List Frame),
    (memberTokens members).foldlM Parse.step ⟨.object done was :: stack, .name⟩
      = some (complete (.object (done.reverse ++ members)) stack)
  | [], h, _, _, _ => absurd rfl h
  | [(name, value)], _, done, was, stack => by
    have read := foldlM_tokens value (.object done name :: stack)
    simp [memberTokens, List.foldlM_append, Parse.step, read, complete]
  | (name, value) :: next :: rest, _, done, was, stack => by
    have read := foldlM_tokens value (.object done name :: stack)
    have others := foldlM_memberTokens (next :: rest) (by simp) ((name, value) :: done) none stack
    simp [memberTokens, List.foldlM_append, Parse.step, read, complete, others]

end

theorem ofTokens?_tokens (j : Json) : ofTokens? j.tokens = some j := by
  have read : j.tokens.foldlM Parse.step Parse.start = some ⟨[], .nothing j⟩ := foldlM_tokens j []
  simp [ofTokens?, read]

/-- A tree with legible numbers is read back from its text, whatever blanks are in it. -/
theorem ofText?_layOut {j : Json} (gap : Nat → Gap) (h : j.Legible) :
    ofText? (.ofList (layOut gap j.tokens)) = some j := by
  rw [ofText?, String.toList_ofList, Token.ofText?_layOut gap (parted_tokens j) h]
  exact ofTokens?_tokens j

/-- The text of a tree is its layout without blanks. -/
theorem render_eq_layOut (j : Json) : j.render = .ofList (layOut (fun _ => .none) j.tokens) := by
  rw [render, layOut_none]

theorem ofText?_render {j : Json} (h : j.Legible) : ofText? j.render = some j := by
  rw [render_eq_layOut]
  exact ofText?_layOut _ h

/-- Quotes and control characters are escaped, all other characters stand for themselves. -/
example : (ofString "é\"\n\x01").render = "\"é\\\"\\n\\u0001\"" := by
  decide

end Json

end Accelerator
