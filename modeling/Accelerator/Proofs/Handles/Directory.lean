import Accelerator.Directory
import Accelerator.Proofs.Handles.Arena

/-!
# How a directory evolves

Whatever happens to a directory is made of a few kinds of change: an object is put at the next
handle, objects are taken out, and objects are changed in place without changing their names. Such
a change leaves the objects of other handles alone, and this also holds for objects that were taken
out before: their handles are not issued again.

## One lemma for all that is left alone

The handles that are touched are a parameter of `Directory.Evolves`. That the others stay as they
are is shown once, by induction, and holds for every operation that is shown to evolve the
directory.

An object that is put in and at once taken out again (`pass`) is a kind of change of its own. Made
of an insertion and a removal it would touch the handle of that object, which was not there before
and is not there afterwards; and then an operation that fails half-way would seem to touch a queue.

## Main definitions

* `Directory.WellFormed`: a directory that comes from an empty one; every object knows its handle.
* `Directory.Evolves`: one directory comes from another by changes of certain handles.

## Main results

* `Directory.Evolves.wellFormed`: well-formed directories stay well-formed.
* `Directory.Evolves.held?_eq`: the objects of other handles stay as they are.
-/

namespace Accelerator

/-- What is found in an association list is in it. -/
theorem mem_of_lookup {κ β : Type} [BEq κ] [LawfulBEq κ] {entries : List (κ × β)} {key : κ}
    {value : β} (found : entries.lookup key = some value) : (key, value) ∈ entries := by
  obtain ⟨before, after, rfl, -⟩ := List.lookup_eq_some_iff.mp found
  exact List.mem_append_right _ List.mem_cons_self

/-- A key with one value in an association list is found with it. -/
theorem lookup_of_mem {κ β : Type} [BEq κ] [LawfulBEq κ] {entries : List (κ × β)} {key : κ}
    {value : β} (mem : (key, value) ∈ entries)
    (unique : ∀ other, (key, other) ∈ entries → other = value) :
    entries.lookup key = some value := by
  cases found : entries.lookup key with
  | none => simpa using List.lookup_eq_none_iff.mp found _ mem
  | some other => rw [unique other (mem_of_lookup found)]

/-- Changing the values of an association list, each by its key. -/
theorem lookup_map_value {κ β γ : Type} [BEq κ] [LawfulBEq κ] (g : κ → β → γ)
    (entries : List (κ × β)) (key : κ) :
    (entries.map fun entry => (entry.1, g entry.1 entry.2)).lookup key =
      (entries.lookup key).map (g key) := by
  induction entries with
  | nil => rfl
  | cons entry rest ih =>
    obtain ⟨named, value⟩ := entry
    rw [List.map_cons, List.lookup_cons, List.lookup_cons]
    cases here : key == named with
    | true => rw [eq_of_beq here]; rfl
    | false => exact ih

namespace Directory

variable {α : Type} {name : α → Handle} {touched : Handle → Prop} {d e : Directory α}
variable {h k : Handle} {value : α} {f : α → α}

/-- A directory that comes from an empty one. Each object knows its handle. -/
structure WellFormed (name : α → Handle) (d : Directory α) : Prop where
  live : d.live.WellFormed
  spent : ∀ entry ∈ d.retired, d.live.Spent entry.1
  named : ∀ h value, d.get? h = some value → name value = h
  named_retired : ∀ entry ∈ d.retired, name entry.2 = entry.1

@[simp] theorem get?_empty (h : Handle) : (empty : Directory α).get? h = none := by
  refine Option.eq_none_iff_forall_ne_some.mpr fun value live => ?_
  have none := (Arena.get?_eq_some_iff.mp live).2
  simp [empty, Arena.empty, Arena.slot?] at none

theorem wellFormed_empty : (empty : Directory α).WellFormed name where
  live := Arena.wellFormed_empty
  spent := by simp [empty]
  named h value live := by simp at live
  named_retired := by simp [empty]

theorem held?_of_get? (live : d.get? h = some value) : d.held? h = some value := by
  rw [held?, live, Option.some_or]

@[simp] theorem held?_empty (h : Handle) : (empty : Directory α).held? h = none := by
  rw [held?, get?_empty]
  rfl

/-- A live object is the one that can be looked at. -/
theorem eq_of_held? {other : α} (held : d.held? h = some value) (live : d.get? h = some other) :
    other = value :=
  Option.some.inj ((held?_of_get? live).symm.trans held)

/-- An object that was taken out. -/
theorem held?_eq_lookup (gone : d.get? h = none) : d.held? h = d.retired.lookup h := by
  rw [held?, gone, Option.none_or]

namespace WellFormed

variable (wf : d.WellFormed name)
include wf

theorem spent_of_lookup (found : d.retired.lookup h = some value) : d.live.Spent h :=
  wf.spent _ (mem_of_lookup found)

/-- An object that can be looked at is live, or its handle is spent. -/
theorem live_or_spent (held : d.held? h = some value) :
    d.get? h = some value ∨ d.get? h = none ∧ d.retired.lookup h = some value ∧ d.live.Spent h := by
  cases live : d.get? h with
  | some other =>
    rw [held?_of_get? live] at held
    exact .inl held
  | none =>
    rw [held?_eq_lookup live] at held
    exact .inr ⟨rfl, held, wf.spent_of_lookup held⟩

theorem name_of_held? (held : d.held? h = some value) : name value = h := by
  rcases wf.live_or_spent held with live | ⟨-, found, -⟩
  · exact wf.named h value live
  · exact wf.named_retired _ (mem_of_lookup found)

/-- The handle of an object that can be looked at is not issued again. -/
theorem ne_nextHandle (room : d.live.slots.size < 2 ^ 32) (held : d.held? h = some value) :
    h ≠ d.nextHandle := by
  rcases wf.live_or_spent held with live | ⟨-, -, spent⟩
  · rintro rfl
    rw [get?, nextHandle, wf.live.get?_nextHandle room] at live
    cases live
  · exact spent.ne_nextHandle wf.live room

end WellFormed

/-- A directory comes from another by changes of the objects of certain handles, and by adding
objects. -/
inductive Evolves (name : α → Handle) (touched : Handle → Prop) :
    Directory α → Directory α → Prop where
  | refl (d : Directory α) : Evolves name touched d d
  | trans {d e f : Directory α} : Evolves name touched d e → Evolves name touched e f →
      Evolves name touched d f
  | insert {d : Directory α} {value : α} (room : d.live.slots.size < 2 ^ 32)
      (named : name value = d.nextHandle) : Evolves name touched d (d.insert value)
  | remove {d e : Directory α} {h : Handle} {last : α → α} {value : α} (touch : touched h)
      (named : ∀ value, name (last value) = name value)
      (removed : d.remove h last = some (value, e)) :
      Evolves name touched d e
  | drain {d : Directory α} {last : α → α} (touch : ∀ h value, d.get? h = some value → touched h)
      (named : ∀ value, name (last value) = name value) : Evolves name touched d (d.drain last)
  | modify {d : Directory α} {h : Handle} {f : α → α} (touch : touched h)
      (named : ∀ value, name (f value) = name value) : Evolves name touched d (d.modify h f)
  /-- An object is put in and at once taken out again. -/
  | pass {d e : Directory α} {last : α → α} {value : α} (room : d.live.slots.size < 2 ^ 32)
      (named : name value = d.nextHandle) (kept : ∀ value, name (last value) = name value)
      (removed : (d.insert value).remove d.nextHandle last = some (last value, e)) :
      Evolves name touched d e

/-- A handle that was issued: it names a live object, or its object was taken out. -/
def Issued (d : Directory α) (h : Handle) : Prop :=
  d.isLive h = true ∨ d.live.Spent h

/-- The handle that the next insertion will issue has not been issued. -/
theorem WellFormed.nextHandle_not_issued (wf : d.WellFormed name)
    (room : d.live.slots.size < 2 ^ 32) : ¬ d.Issued d.nextHandle := by
  rintro (live | spent)
  · rw [isLive, get?, nextHandle, wf.live.get?_nextHandle room] at live
    cases live
  · exact spent.ne_nextHandle wf.live room rfl

/-! ### Looking after a change -/

theorem get?_modify_self (d : Directory α) (h : Handle) (f : α → α) :
    (d.modify h f).get? h = (d.get? h).map f :=
  Arena.get?_modify_self ..

theorem get?_modify_of_ne (ne : k ≠ h) (f : α → α) : (d.modify h f).get? k = d.get? k :=
  Arena.get?_modify_of_ne ne f

theorem get?_modify (d : Directory α) (h k : Handle) (f : α → α) :
    (d.modify h f).get? k = if k = h then (d.get? h).map f else d.get? k := by
  split
  case isTrue same => rw [same, get?_modify_self]
  case isFalse other => exact get?_modify_of_ne other f

theorem remove_eq_some {last : α → α} (removed : d.remove h last = some (value, e)) :
    ∃ before live, d.live.remove h = some (before, live) ∧ d.get? h = some before ∧
      value = last before ∧ e = ⟨live, (h, last before) :: d.retired⟩ := by
  rw [remove, Option.map_eq_some_iff] at removed
  obtain ⟨⟨before, live⟩, removed, same⟩ := removed
  cases same
  exact ⟨before, live, removed, Arena.get?_of_remove removed, rfl, rfl⟩

/-- A live object can be taken out. -/
theorem exists_remove (live : d.get? h = some value) (last : α → α) :
    ∃ e, d.remove h last = some (last value, e) := by
  have taken : ((d.live.remove h).map (·.1)) = some value := by
    rw [Arena.remove, Option.map_map]
    exact (Option.map_id' ..).trans live
  obtain ⟨⟨_, arena⟩, removed, rfl⟩ := Option.map_eq_some_iff.mp taken
  exact ⟨_, by rw [remove, removed]; rfl⟩

/-- The handle of an object that was taken out stays issued. -/
theorem issued_of_remove {last : α → α} (removed : d.remove h last = some (value, e)) :
    e.Issued h := by
  obtain ⟨before, live, taken, -, -, rfl⟩ := remove_eq_some removed
  exact .inr (Arena.Spent.of_remove taken)

/-- An object that was taken out can still be looked at. -/
theorem held?_remove_self {last : α → α} (wf : d.WellFormed name)
    (removed : d.remove h last = some (value, e)) : e.get? h = none ∧ e.held? h = some value := by
  obtain ⟨before, live, taken, -, rfl, rfl⟩ := remove_eq_some removed
  have gone : (⟨live, (h, last before) :: d.retired⟩ : Directory α).get? h = none :=
    (Arena.Spent.of_remove taken).get?_eq_none (Arena.WellFormed.remove taken wf.live)
  refine ⟨gone, ?_⟩
  rw [held?_eq_lookup gone, List.lookup_cons_self]

theorem get?_drain (d : Directory α) (last : α → α) (h : Handle) : (d.drain last).get? h = none :=
  Arena.get?_drain ..

/-- The objects taken out by draining are found by their handles. -/
theorem held?_drain_of_live (wf : d.WellFormed name) (live : d.get? h = some value)
    (last : α → α) : (d.drain last).held? h = some (last value) := by
  have found : (d.live.entries.map fun entry => (entry.1, last entry.2)).lookup h =
      some (last value) := by
    refine lookup_of_mem (List.mem_map.mpr ⟨(h, value), wf.live.mem_entries.mpr live, rfl⟩) ?_
    intro other mem
    obtain ⟨⟨h, before⟩, listed, same⟩ := List.mem_map.mp mem
    cases same
    have again : d.get? h = some before := wf.live.mem_entries.mp listed
    rw [Option.some.inj (live.symm.trans again)]
  rw [held?_eq_lookup (get?_drain ..), drain, List.lookup_append]
  exact Option.or_eq_some_iff.mpr (.inl found)

/-- Draining leaves what had been taken out before. -/
theorem held?_drain_of_gone (wf : d.WellFormed name) (gone : d.get? h = none) (last : α → α) :
    (d.drain last).held? h = d.held? h := by
  have missing : (d.live.entries.map fun entry => (entry.1, last entry.2)).lookup h = none := by
    refine List.lookup_eq_none_iff.mpr fun entry mem => ?_
    obtain ⟨⟨k, before⟩, listed, rfl⟩ := List.mem_map.mp mem
    have live : d.get? k = some before := wf.live.mem_entries.mp listed
    have other : h ≠ k := fun same => by rw [← same, gone] at live; cases live
    simpa using other
  rw [held?_eq_lookup (get?_drain ..), held?_eq_lookup gone, drain, List.lookup_append]
  exact Option.or_eq_right_of_none missing

/-! ### Well-formed directories -/

namespace WellFormed

theorem insert (wf : d.WellFormed name) (room : d.live.slots.size < 2 ^ 32)
    (named : name value = d.nextHandle) : (d.insert value).WellFormed name := by
  refine ⟨wf.live.insert room value,
    fun entry he => (wf.spent entry he).insert wf.live room value,
    fun h object live => ?_, wf.named_retired⟩
  by_cases new : h = d.nextHandle
  · subst new
    rw [get?, Directory.insert, nextHandle, Arena.get?_insert_self wf.live room] at live
    exact Option.some.inj live ▸ named
  · exact wf.named h object ((Arena.get?_insert_of_ne wf.live room new value).symm.trans live)

theorem remove {last : α → α} (wf : d.WellFormed name)
    (named : ∀ value, name (last value) = name value)
    (removed : d.remove h last = some (value, e)) : e.WellFormed name := by
  obtain ⟨before, arena, taken, live, rfl, rfl⟩ := remove_eq_some removed
  refine ⟨Arena.WellFormed.remove taken wf.live, fun entry he => ?_, fun k object found => ?_,
    fun entry he => ?_⟩
  · rcases List.mem_cons.mp he with rfl | he
    · exact Arena.Spent.of_remove taken
    · exact Arena.Spent.remove taken wf.live (wf.spent entry he)
  · refine wf.named k object ((Arena.get?_remove_of_ne taken ?_).symm.trans found)
    rintro rfl
    rw [(held?_remove_self wf removed).1] at found
    cases found
  · rcases List.mem_cons.mp he with rfl | he
    · exact (named before).trans (wf.named h before live)
    · exact wf.named_retired entry he

theorem drain {last : α → α} (wf : d.WellFormed name)
    (named : ∀ value, name (last value) = name value) : (d.drain last).WellFormed name := by
  refine ⟨wf.live.drain, fun entry he => ?_, fun h object found => ?_, fun entry he => ?_⟩
  · rcases List.mem_append.mp he with taken | before
    · obtain ⟨⟨k, object⟩, listed, rfl⟩ := List.mem_map.mp taken
      exact Arena.Spent.of_drain (wf.live.mem_entries.mp listed)
    · exact (wf.spent entry before).drain wf.live
  · rw [get?_drain] at found
    cases found
  · rcases List.mem_append.mp he with taken | before
    · obtain ⟨⟨k, object⟩, listed, rfl⟩ := List.mem_map.mp taken
      exact (named object).trans (wf.named k object (wf.live.mem_entries.mp listed))
    · exact wf.named_retired entry before

theorem modify (wf : d.WellFormed name)
    (named : ∀ value, d.get? h = some value → name (f value) = name value) :
    (d.modify h f).WellFormed name := by
  refine ⟨wf.live.modify h f, fun entry he => (wf.spent entry he).modify h f,
    fun k object found => ?_, wf.named_retired⟩
  rw [get?_modify] at found
  split at found
  case isTrue same =>
    obtain ⟨before, live, rfl⟩ := Option.map_eq_some_iff.mp found
    exact (named before live).trans (same ▸ wf.named h before live)
  case isFalse => exact wf.named k object found

theorem modifyHeld (wf : d.WellFormed name) (named : ∀ value, name (f value) = name value) :
    (d.modifyHeld h f).WellFormed name := by
  rw [Directory.modifyHeld]
  split
  · exact wf.modify fun value _ => named value
  · refine ⟨wf.live, fun entry changed => ?_, wf.named, fun entry changed => ?_⟩
    all_goals obtain ⟨⟨k, value⟩, before, rfl⟩ := List.mem_map.mp changed
    · exact wf.spent (k, value) before
    · have kept : name value = k := wf.named_retired (k, value) before
      dsimp only
      split
      · exact (named value).trans kept
      · exact kept

end WellFormed

/-! ### What can be looked at after a change -/

theorem get?_insert (wf : d.WellFormed name) (room : d.live.slots.size < 2 ^ 32) (value : α)
    (k : Handle) :
    (d.insert value).get? k = if k = d.nextHandle then some value else d.get? k := by
  split
  case isTrue new =>
    rw [new]
    exact Arena.get?_insert_self wf.live room value
  case isFalse other => exact Arena.get?_insert_of_ne wf.live room other value

theorem held?_insert (wf : d.WellFormed name) (room : d.live.slots.size < 2 ^ 32) (value : α)
    (k : Handle) :
    (d.insert value).held? k = if k = d.nextHandle then some value else d.held? k := by
  rw [held?, get?_insert wf room]
  split
  · exact Option.some_or
  · rfl

theorem held?_modify (live : d.get? h = some value) (f : α → α) (k : Handle) :
    (d.modify h f).held? k = if k = h then some (f value) else d.held? k := by
  rw [held?, get?_modify, live]
  split
  · exact Option.some_or
  · rfl

/-- A change that cannot be seen in any object cannot be seen in what a handle shows. -/
theorem map_held?_modify {β : Type} {view : α → β} (same : ∀ value, view (f value) = view value)
    (d : Directory α) (h k : Handle) :
    ((d.modify h f).held? k).map view = (d.held? k).map view := by
  have live : ((d.modify h f).get? k).map view = (d.get? k).map view :=
    Arena.map_get?_modify same d.live h k
  rw [held?, held?, Option.map_or, Option.map_or, live]
  rfl

theorem modifyHeld_of_live (live : d.get? h = some value) (f : α → α) :
    d.modifyHeld h f = d.modify h f :=
  if_pos (by rw [isLive, live]; rfl)

/-- Those who look for live objects see no difference. -/
theorem get?_modifyHeld (d : Directory α) (h k : Handle) (f : α → α) :
    (d.modifyHeld h f).get? k = if k = h then (d.get? h).map f else d.get? k := by
  rw [modifyHeld]
  split
  case isTrue => exact d.get?_modify h k f
  case isFalse dead =>
    have gone : d.get? h = none := by simpa [isLive] using dead
    split
    case isTrue same => rw [gone, same]; exact gone
    case isFalse => rfl

theorem held?_modifyHeld (d : Directory α) (h k : Handle) (f : α → α) :
    (d.modifyHeld h f).held? k = if k = h then (d.held? h).map f else d.held? k := by
  cases live : d.get? h with
  | some value => rw [modifyHeld_of_live live, held?_modify live, held?_of_get? live]; rfl
  | none =>
    have dead : ¬ d.isLive h = true := by simp [isLive, live]
    rw [modifyHeld, if_neg dead, held?, held?_eq_lookup live, held?,
      lookup_map_value (fun k value => if k = h then f value else value)]
    change (d.get? k).or _ = _
    split
    case isTrue same => rw [same, live, Option.none_or]
    case isFalse => rw [Option.map_id']

/-- The object of a handle, live or not, is set to another. -/
structure Sets (d : Directory α) (h : Handle) (value : α) (e : Directory α) : Prop where
  held : ∀ k, e.held? k = if k = h then some value else d.held? k
  live : ∀ k, e.get? k = if k = h then (d.get? k).map fun _ => value else d.get? k

theorem sets_modifyHeld (held : d.held? h = some value) (f : α → α) :
    d.Sets h (f value) (d.modifyHeld h f) where
  held k := by rw [held?_modifyHeld, held, Option.map_some]
  live k := by
    rw [get?_modifyHeld]
    split
    case isTrue same =>
      rw [same]
      cases live : d.get? h with
      | none => rfl
      | some other =>
        rw [eq_of_held? held live]
        rfl
    case isFalse => rfl

theorem Sets.trans {c : Directory α} {last : α} (first : c.Sets h value d)
    (second : d.Sets h last e) : c.Sets h last e where
  held k := by
    rw [second.held, first.held]
    split <;> rfl
  live k := by
    rw [second.live, first.live]
    split
    · exact Option.map_map ..
    · rfl

theorem get?_remove {last : α → α} (wf : d.WellFormed name)
    (removed : d.remove h last = some (value, e)) (k : Handle) :
    e.get? k = if k = h then none else d.get? k := by
  split
  case isTrue same =>
    rw [same]
    exact (held?_remove_self wf removed).1
  case isFalse other =>
    obtain ⟨before, arena, taken, -, -, rfl⟩ := remove_eq_some removed
    exact Arena.get?_remove_of_ne taken other

theorem held?_remove {last : α → α} (wf : d.WellFormed name)
    (removed : d.remove h last = some (value, e)) (k : Handle) :
    e.held? k = if k = h then some value else d.held? k := by
  split
  case isTrue same =>
    rw [same]
    exact (held?_remove_self wf removed).2
  case isFalse other =>
    rw [held?, get?_remove wf removed, if_neg other]
    obtain ⟨before, arena, -, -, -, rfl⟩ := remove_eq_some removed
    rw [List.lookup_cons, beq_false_of_ne other]
    rfl

section Pass

variable {last : α → α} (wf : d.WellFormed name) (room : d.live.slots.size < 2 ^ 32)
variable (named : name value = d.nextHandle)
variable (removed : (d.insert value).remove d.nextHandle last = some (last value, e)) (k : Handle)
include wf room named removed

/-- An object that is put in and at once taken out again is not found, and the others are. -/
theorem get?_pass : e.get? k = d.get? k := by
  rw [get?_remove (wf.insert room named) removed, get?_insert wf room]
  by_cases new : k = d.nextHandle
  · rw [if_pos new, new]
    exact (wf.live.get?_nextHandle room).symm
  · rw [if_neg new, if_neg new]

theorem held?_pass : e.held? k = if k = d.nextHandle then some (last value) else d.held? k := by
  rw [held?_remove (wf.insert room named) removed, held?_insert wf room]
  split <;> rfl

end Pass

/-- Taking an object out as it is hides it from nobody who holds on to it. -/
theorem held?_remove_id (wf : d.WellFormed name) (removed : d.remove h id = some (value, e))
    (k : Handle) : e.held? k = d.held? k := by
  obtain ⟨before, -, -, live, same, -⟩ := remove_eq_some removed
  rw [held?_remove wf removed]
  split
  case isTrue here => rw [here, held?_of_get? live, same, id]
  case isFalse => rfl

/-- Taking all objects out as they are hides none from those who hold on to it. -/
theorem held?_drain_id (wf : d.WellFormed name) (k : Handle) :
    (d.drain id).held? k = d.held? k := by
  cases live : d.get? k with
  | none => exact held?_drain_of_gone wf live id
  | some value => rw [held?_drain_of_live wf live, held?_of_get? live, id]

/-! ### Evolving -/

namespace Evolves

theorem mono {more : Handle → Prop} (ev : Evolves name touched d e)
    (sub : ∀ h, touched h → more h) : Evolves name more d e := by
  induction ev with
  | refl d => exact .refl d
  | trans _ _ first second => exact first.trans second
  | insert room named => exact .insert room named
  | remove touch named removed => exact .remove (sub _ touch) named removed
  | drain touch named => exact .drain (fun h value live => sub h (touch h value live)) named
  | modify touch named => exact .modify (sub _ touch) named
  | pass room named kept removed => exact .pass room named kept removed

/-- Well-formed directories stay well-formed. -/
theorem wellFormed (ev : Evolves name touched d e) (wf : d.WellFormed name) :
    e.WellFormed name := by
  induction ev with
  | refl d => exact wf
  | trans _ _ first second => exact second (first wf)
  | insert room named => exact wf.insert room named
  | remove _ named removed => exact wf.remove named removed
  | drain _ named => exact wf.drain named
  | modify _ named => exact wf.modify fun value _ => named value
  | pass room named kept removed => exact (wf.insert room named).remove kept removed

/-- A handle whose object was taken out never names an object again. -/
theorem spent (ev : Evolves name touched d e) (wf : d.WellFormed name) (gone : d.live.Spent h) :
    e.live.Spent h := by
  induction ev with
  | refl d => exact gone
  | trans first _ ih ih' => exact ih' (first.wellFormed wf) (ih wf gone)
  | insert room => exact gone.insert wf.live room _
  | remove _ _ removed =>
    obtain ⟨before, arena, taken, -, -, rfl⟩ := remove_eq_some removed
    exact Arena.Spent.remove taken wf.live gone
  | drain => exact gone.drain wf.live
  | modify => exact gone.modify _ _
  | pass room _ _ removed =>
    obtain ⟨before, arena, taken, -, -, rfl⟩ := remove_eq_some removed
    exact Arena.Spent.remove taken (wf.live.insert room _) (gone.insert wf.live room _)

/-- What was issued stays so. -/
theorem issued (ev : Evolves name touched d e) (wf : d.WellFormed name) (issued : d.Issued h) :
    e.Issued h := by
  rcases issued with live | gone
  case inr => exact .inr (ev.spent wf gone)
  induction ev with
  | refl d => exact .inl live
  | trans first second ih ih' =>
    rcases ih wf live with live | gone
    · exact ih' (first.wellFormed wf) live
    · exact .inr (second.spent (first.wellFormed wf) gone)
  | @insert d value room named =>
    have other : h ≠ d.live.nextHandle := by
      rintro rfl
      rw [isLive, get?, wf.live.get?_nextHandle room] at live
      cases live
    exact .inl ((congrArg _ (Arena.get?_insert_of_ne wf.live room other value)).trans live)
  | @remove d e k last value touch named removed =>
    obtain ⟨before, arena, taken, -, -, rfl⟩ := remove_eq_some removed
    by_cases same : h = k
    · rw [same]
      exact .inr (Arena.Spent.of_remove taken)
    · exact .inl ((congrArg _ (Arena.get?_remove_of_ne taken same)).trans live)
  | drain =>
    obtain ⟨value, found⟩ := Option.isSome_iff_exists.mp live
    exact .inr (Arena.Spent.of_drain found)
  | @modify d k f => exact .inl ((d.live.isSome_get?_modify k h f).trans live)
  | pass room named _ removed =>
    exact .inl ((congrArg Option.isSome (get?_pass wf room named removed h)).trans live)

/-- The objects of handles that are not touched stay as they are, live or taken out. -/
theorem held?_eq (ev : Evolves name touched d e) (wf : d.WellFormed name)
    (held : d.held? h = some value) (spared : ¬ touched h) :
    e.get? h = d.get? h ∧ e.held? h = some value := by
  induction ev with
  | refl d => exact ⟨rfl, held⟩
  | trans one _ first second =>
    have middle := first wf held
    have final := second (one.wellFormed wf) middle.2
    exact ⟨final.1.trans middle.1, final.2⟩
  | @insert d object room named =>
    have same : (d.insert object).get? h = d.get? h :=
      Arena.get?_insert_of_ne wf.live room (wf.ne_nextHandle room held) object
    exact ⟨same, by rw [held?, same]; exact held⟩
  | @remove d _ k last object touch named removed =>
    obtain ⟨before, arena, taken, live, rfl, rfl⟩ := remove_eq_some removed
    have other : h ≠ k := fun same => spared (same ▸ touch)
    have same : (⟨arena, (k, last before) :: d.retired⟩ : Directory α).get? h = d.get? h :=
      Arena.get?_remove_of_ne taken other
    refine ⟨same, ?_⟩
    rw [held?, same, List.lookup_cons, beq_false_of_ne other]
    exact held
  | @drain d last touch named =>
    have gone : d.get? h = none :=
      Option.eq_none_iff_forall_ne_some.mpr fun value live => spared (touch h value live)
    exact ⟨(get?_drain d last h).trans gone.symm, (held?_drain_of_gone wf gone last).trans held⟩
  | @modify d k f touch named =>
    have other : h ≠ k := fun same => spared (same ▸ touch)
    have same : (d.modify k f).get? h = d.get? h := get?_modify_of_ne other f
    exact ⟨same, by rw [held?, same]; exact held⟩
  | pass room named _ removed =>
    refine ⟨get?_pass wf room named removed h, ?_⟩
    rw [held?_pass wf room named removed, if_neg (wf.ne_nextHandle room held)]
    exact held

end Evolves

end Directory

end Accelerator
