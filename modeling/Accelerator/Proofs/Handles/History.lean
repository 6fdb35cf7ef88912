import Accelerator.Proofs.Handles.Arena

/-!
# What a handle finds, told from the past

An arena is used by inserting objects, which may fail half-way, by removing objects by handles of
any kind, and by draining. What has happened since the arena was new, its *history*, decides what
every handle finds: the object that it was issued for, as long as nothing has ended it, and nothing
afterwards. This is told here without looking at slots, generations or the free list.

All of it rests on two facts about well-formed arenas. The next handle names nothing, and it is not
the handle of an object that was taken out; so a handle that has been issued is, at any later time,
either still live with its object, or spent.

## What the induction carries

That a handle finds what it was issued for is not enough to go on with: an insertion might issue it
again. `Arena.Tells.spent` says that a handle which was issued and finds nothing is spent, so it is
not the next one. The last event stands in front, so that the history and the run grow at the same
end.

## Main definitions

* `Arena.Event`, `Arena.History`: what happened to an arena, the last event in front.
* `Arena.History.issued`, `Arena.History.taken`: handles with their objects as they were issued, and
  the handles that were removed.
* `Arena.History.Live`: a handle was issued for an object and has not been ended since.
* `Arena.Run`: an arena with its history.

## Main results

* `Arena.Run.tells`: what history and arena have in common.
* `Arena.Run.count_eq`: the number of objects is kept right.
* `Arena.handles_name_once`: a handle is issued once and names its object until it is ended.
-/

namespace Accelerator

namespace Arena

variable {α ε : Type}

/-! ### Histories -/

/-- What happened to an arena. -/
inductive Event (α : Type) where
  /-- An object was put at a handle. -/
  | issued (h : Handle) (value : α)
  /-- An object could not be made. -/
  | refused
  /-- The object of a handle was asked for to be taken out, with what was found. -/
  | removed (h : Handle) (found : Option α)
  /-- All objects were taken out. -/
  | drained

namespace Event

/-- The event of an insertion at a handle. -/
def ofInsertion (h : Handle) : Except ε α → Event α
  | .ok value => issued h value
  | .error _ => refused

/-- After the event the handle does not name anything any more. -/
def Ends (h : Handle) : Event α → Prop
  | issued _ _ | refused => False
  | removed k _ => k = h
  | drained => True

/-- The handle that the event issued, with its object. -/
def issued? : Event α → Option (Handle × α)
  | issued h value => some (h, value)
  | _ => none

/-- The handle whose object the event took out by itself. -/
def taken? : Event α → Option Handle
  | removed h (some _) => some h
  | _ => none

end Event

/-- What happened to an arena, the last event in front. -/
abbrev History (α : Type) := List (Event α)

namespace History

variable {past : History α} {e : Event α} {h : Handle} {value : α}

/-- The handles that were issued, each with its object. -/
def issued (past : History α) : List (Handle × α) :=
  past.filterMap Event.issued?

/-- The handles whose objects were removed. -/
def taken (past : History α) : List Handle :=
  past.filterMap Event.taken?

/-- The handle was issued for the object, and nothing has ended it since. -/
def Live (past : History α) (h : Handle) (value : α) : Prop :=
  ∃ later earlier, past = later ++ .issued h value :: earlier ∧ ∀ e ∈ later, ¬ e.Ends h

@[simp] theorem not_live_nil : ¬ Live ([] : History α) h value := by
  rintro ⟨later, earlier, same, -⟩
  cases later <;> cases same

theorem live_cons :
    Live (e :: past) h value ↔ e = .issued h value ∨ ¬ e.Ends h ∧ past.Live h value := by
  constructor
  · rintro ⟨_ | ⟨first, later⟩, earlier, same, spared⟩
    · exact .inl (List.cons.inj same).1
    · obtain ⟨rfl, rfl⟩ := List.cons.inj same
      exact .inr ⟨spared e List.mem_cons_self, later, earlier, rfl,
        fun e he => spared e (List.mem_cons_of_mem _ he)⟩
  · rintro (rfl | ⟨spared, later, earlier, rfl, rest⟩)
    · exact ⟨[], past, rfl, by simp⟩
    · exact ⟨e :: later, earlier, rfl, List.forall_mem_cons.mpr ⟨spared, rest⟩⟩

/-- A handle that was ended, and is not issued again, does not live any more. -/
theorem not_live_of_ended {later earlier : History α} {other : α}
    (once : ((later ++ .issued h value :: earlier).issued.map Prod.fst).Nodup)
    (ended : ∃ e ∈ later, e.Ends h) : ¬ Live (later ++ .issued h value :: earlier) h other := by
  induction later with
  | nil =>
    obtain ⟨e, listed, -⟩ := ended
    cases listed
  | cons e later ih =>
    rw [List.cons_append, live_cons]
    rintro (rfl | ⟨spared, live⟩)
    · refine (List.nodup_cons.mp once).1 (List.mem_map.mpr ⟨(h, value), ?_, rfl⟩)
      exact List.mem_filterMap.mpr
        ⟨.issued h value, List.mem_append_right _ List.mem_cons_self, rfl⟩
    · refine ih ?_ ?_ live
      · refine once.sublist (List.Sublist.map _ (List.Sublist.filterMap _ ?_))
        exact List.sublist_cons_self _ _
      · obtain ⟨end', listed, ends⟩ := ended
        rcases List.mem_cons.mp listed with rfl | listed
        · exact absurd ends spared
        · exact ⟨end', listed, ends⟩

theorem Live.mem_issued (live : past.Live h value) : (h, value) ∈ past.issued := by
  obtain ⟨later, earlier, rfl, -⟩ := live
  exact List.mem_filterMap.mpr
    ⟨.issued h value, List.mem_append_right _ List.mem_cons_self, rfl⟩

end History

/-! ### Runs -/

/-- An arena that was new once, with what has happened to it. There is a number for each slot. -/
inductive Run (ε : Type) {α : Type} : History α → Arena α → Prop where
  | new : Run ε [] .empty
  | insertWith {past : History α} {a : Arena α} (before : Run ε past a)
      (room : a.slots.size < 2 ^ 32) (make : Handle → Except ε α) :
      Run ε (.ofInsertion a.nextHandle (a.insertWith make).1 :: past) (a.insertWith make).2
  | remove {past : History α} {a : Arena α} (before : Run ε past a) (h : Handle) :
      Run ε (.removed h ((a.remove h).map (·.1)) :: past) (((a.remove h).map (·.2)).getD a)
  | drain {past : History α} {a : Arena α} (before : Run ε past a) :
      Run ε (.drained :: past) a.drain

variable {past : History α} {a b : Arena α} {h : Handle} {value : α}

/-- What an arena has in common with its history: a handle that was issued finds its object until
it is ended, and is spent from then on. -/
structure Tells (past : History α) (a : Arena α) : Prop where
  wellFormed : a.WellFormed
  get?_iff : ∀ h value, a.get? h = some value ↔ past.Live h value
  spent : ∀ entry ∈ past.issued, a.get? entry.1 = none → a.Spent entry.1
  taken : ∀ h ∈ past.taken, a.Spent h
  notNull : ∀ entry ∈ past.issued, entry.1.isNull = false
  issuedOnce : (past.issued.map Prod.fst).Nodup
  takenOnce : past.taken.Nodup

namespace Tells

theorem new : Tells [] (.empty : Arena α) where
  wellFormed := wellFormed_empty
  get?_iff h value := by simp [Arena.get?_eq_some_iff, empty, slot?]
  spent := by simp [History.issued]
  taken := by simp [History.taken]
  notNull := by simp [History.issued]
  issuedOnce := by simp [History.issued]
  takenOnce := by simp [History.taken]

/-- A handle that was issued is not issued again. -/
theorem nextHandle_notMem (tells : Tells past a) (room : a.slots.size < 2 ^ 32) :
    a.nextHandle ∉ past.issued.map Prod.fst := by
  intro before
  obtain ⟨entry, listed, same⟩ := List.mem_map.mp before
  have gone : a.get? entry.1 = none := same ▸ tells.wellFormed.get?_nextHandle room
  exact (tells.spent entry listed gone).ne_nextHandle tells.wellFormed room same

theorem insert (tells : Tells past a) (room : a.slots.size < 2 ^ 32) (value : α) :
    Tells (.issued a.nextHandle value :: past) (a.insert value) := by
  have wf := tells.wellFormed
  have fresh := tells.nextHandle_notMem room
  have found := get?_insert_self wf room value
  have listed : History.issued (.issued a.nextHandle value :: past) =
      (a.nextHandle, value) :: past.issued := rfl
  refine ⟨wf.insert room value, fun h object => ?_, ?_, ?_, ?_, ?_, tells.takenOnce⟩
  · rw [History.live_cons]
    by_cases new : h = a.nextHandle
    · rw [new, found]
      constructor
      · rintro ⟨⟩
        exact .inl rfl
      · rintro (same | ⟨-, live⟩)
        · cases same
          rfl
        · exact absurd (List.mem_map_of_mem live.mem_issued) fresh
    · rw [get?_insert_of_ne wf room new, tells.get?_iff]
      refine ⟨fun live => .inr ⟨id, live⟩, ?_⟩
      rintro (same | ⟨-, live⟩)
      · cases same
        exact absurd rfl new
      · exact live
  · rw [listed, List.forall_mem_cons]
    refine ⟨fun gone => ?_, fun entry he gone => ?_⟩
    · cases found.symm.trans gone
    · have other : entry.1 ≠ a.nextHandle := fun same =>
        fresh (same ▸ List.mem_map_of_mem he)
      rw [get?_insert_of_ne wf room other] at gone
      exact (tells.spent entry he gone).insert wf room value
  · exact fun h hh => (tells.taken h hh).insert wf room value
  · rw [listed, List.forall_mem_cons]
    exact ⟨Handle.isNull_eq_false (wf.slot?_nextHandle room).1, tells.notNull⟩
  · rw [listed, List.map_cons, List.nodup_cons]
    exact ⟨fresh, tells.issuedOnce⟩

/-- Nothing is issued, removed or ended by an insertion that fails. -/
theorem refused (tells : Tells past a) : Tells (.refused :: past) a where
  wellFormed := tells.wellFormed
  get?_iff h value := by
    rw [tells.get?_iff, History.live_cons]
    simp [Event.Ends]
  spent := tells.spent
  taken := tells.taken
  notNull := tells.notNull
  issuedOnce := tells.issuedOnce
  takenOnce := tells.takenOnce

theorem insertWith (tells : Tells past a) (room : a.slots.size < 2 ^ 32)
    (make : Handle → Except ε α) :
    Tells (.ofInsertion a.nextHandle (a.insertWith make).1 :: past) (a.insertWith make).2 := by
  rw [Arena.insertWith]
  cases make a.nextHandle with
  | error e => exact tells.refused
  | ok value => exact tells.insert room value

/-- Asking for a handle that names nothing changes nothing. -/
theorem remove_none (tells : Tells past a) (gone : a.get? h = none) :
    Tells (.removed h none :: past) a where
  wellFormed := tells.wellFormed
  get?_iff k value := by
    rw [tells.get?_iff, History.live_cons]
    refine ⟨fun live => .inr ⟨?_, live⟩, ?_⟩
    · rintro ⟨⟩
      cases gone.symm.trans ((tells.get?_iff h value).mpr live)
    · rintro (same | ⟨-, live⟩)
      · cases same
      · exact live
  spent := tells.spent
  taken := tells.taken
  notNull := tells.notNull
  issuedOnce := tells.issuedOnce
  takenOnce := tells.takenOnce

theorem remove_some (tells : Tells past a) (removed : a.remove h = some (value, b)) :
    Tells (.removed h (some value) :: past) b := by
  have wf := tells.wellFormed
  have live := get?_of_remove removed
  have gone : b.get? h = none := (Spent.of_remove removed).get?_eq_none (.remove removed wf)
  refine ⟨.remove removed wf, fun k object => ?_, fun entry he missing => ?_, ?_, tells.notNull,
    tells.issuedOnce, ?_⟩
  · rw [History.live_cons]
    by_cases same : k = h
    · rw [same, gone]
      simp [Event.Ends]
    · rw [get?_remove_of_ne removed same, tells.get?_iff]
      simp [Event.Ends, Ne.symm same]
  · by_cases same : entry.1 = h
    · exact same ▸ Spent.of_remove removed
    · rw [get?_remove_of_ne removed same] at missing
      exact Spent.remove removed wf (tells.spent entry he missing)
  · exact List.forall_mem_cons.mpr
      ⟨Spent.of_remove removed, fun k hk => Spent.remove removed wf (tells.taken k hk)⟩
  · refine List.nodup_cons.mpr ⟨fun before => ?_, tells.takenOnce⟩
    -- what was removed before is spent, and finds nothing that could be removed again
    cases live.symm.trans ((tells.taken h before).get?_eq_none wf)

theorem remove (tells : Tells past a) (h : Handle) :
    Tells (.removed h ((a.remove h).map (·.1)) :: past) (((a.remove h).map (·.2)).getD a) := by
  cases removed : a.remove h with
  | none => exact tells.remove_none (Option.map_eq_none_iff.mp removed)
  | some found => exact tells.remove_some removed

theorem drain (tells : Tells past a) : Tells (.drained :: past) a.drain where
  wellFormed := tells.wellFormed.drain
  get?_iff h value := by
    rw [get?_drain, History.live_cons]
    simp [Event.Ends]
  spent entry he _ := by
    cases live : a.get? entry.1 with
    | none => exact (tells.spent entry he live).drain tells.wellFormed
    | some object => exact Spent.of_drain live
  taken h hh := (tells.taken h hh).drain tells.wellFormed
  notNull := tells.notNull
  issuedOnce := tells.issuedOnce
  takenOnce := tells.takenOnce

end Tells

/-- The arena and its history agree along every run. -/
theorem Run.tells (run : Run ε past a) : Tells past a := by
  induction run with
  | new => exact .new
  | insertWith _ room make tells => exact tells.insertWith room make
  | remove _ h tells => exact tells.remove h
  | drain _ tells => exact tells.drain

/-! ### Counting and listing -/

/-- The number of objects is kept right along every run. -/
theorem Run.count_eq (run : Run ε past a) : a.count = a.values.length := by
  induction run with
  | new => rfl
  | @insertWith past a before room make counted =>
    rw [Arena.insertWith]
    cases make a.nextHandle with
    | error e => exact counted
    | ok value =>
      have count : (a.insert value).count = a.count + 1 := by
        rw [Arena.insert]
        split <;> rfl
      rw [count, counted, (before.tells.wellFormed.perm_values_insert value).length_eq]
      rfl
  | @remove past a before h counted =>
    cases removed : a.remove h with
    | none => exact counted
    | some found =>
      obtain ⟨value, b⟩ := found
      have fewer := (perm_values_remove removed).length_eq
      rw [List.length_cons] at fewer
      have count : b.count = a.count - 1 := by
        rw [Arena.remove, Option.map_eq_some_iff] at removed
        obtain ⟨_, -, same⟩ := removed
        cases same
        rfl
      change b.count = b.values.length
      omega
  | drain => rw [values_drain]; rfl

/-- The objects are listed in the order of their slots. -/
theorem WellFormed.entries_ordered (wf : a.WellFormed) :
    a.entries.Pairwise fun x y => x.1.index.toNat < y.1.index.toNat := by
  refine List.pairwise_filterMap.mpr ((numbers_ascend wf.few).imp fun lt x hx y hy => ?_)
  obtain ⟨_, -, rfl⟩ := Option.map_eq_some_iff.mp hx
  obtain ⟨_, -, rfl⟩ := Option.map_eq_some_iff.mp hy
  simpa using lt

/-! ### What a handle finds -/

/-- A handle is issued once only, is not null, and finds the object that it was issued for until it
is removed or all objects are taken out; afterwards, and if it was never issued, it finds nothing,
and cannot be removed. Each object is removed once at most. The number of objects is that of the
list of objects, which holds each live object once, in the order of slots. -/
theorem handles_name_once (run : Run ε past a) :
    (past.issued.map Prod.fst).Nodup ∧
      (∀ h value, (h, value) ∈ past.issued → h ≠ .null) ∧
      (∀ later earlier h value, past = later ++ .issued h value :: earlier →
        ((∀ e ∈ later, ¬ e.Ends h) → a.get? h = some value) ∧
          ((∃ e ∈ later, e.Ends h) → a.get? h = none)) ∧
      (∀ h value, a.get? h = some value ↔ past.Live h value) ∧
      (∀ h, (∀ value, ¬ past.Live h value) → a.get? h = none ∧ a.remove h = none) ∧
      (∀ h value, past.Live h value → ∃ b, a.remove h = some (value, b)) ∧
      past.taken.Nodup ∧
      a.size = a.values.length ∧
      (∀ n, a.nth? n = a.values[n]?) ∧
      ∃ entries : List (Handle × α), entries.map Prod.snd = a.values ∧
        entries.Pairwise (fun x y => x.1.index.toNat < y.1.index.toNat) ∧
        ∀ h value, (h, value) ∈ entries ↔ past.Live h value := by
  have tells := run.tells
  have wf := tells.wellFormed
  have stale : ∀ h, (∀ value, ¬ past.Live h value) → a.get? h = none := fun h gone =>
    Option.eq_none_iff_forall_ne_some.mpr fun value live =>
      gone value ((tells.get?_iff h value).mp live)
  refine ⟨tells.issuedOnce, fun h value listed => ?_, fun later earlier h value same => ⟨?_, ?_⟩,
    tells.get?_iff, fun h gone => ⟨stale h gone, ?_⟩, fun h value live => ?_, tells.takenOnce,
    run.count_eq, fun n => rfl, a.entries, a.map_snd_entries, wf.entries_ordered, fun h value => ?_⟩
  · rintro rfl
    cases tells.notNull _ listed
  · intro spared
    exact (tells.get?_iff h value).mpr ⟨later, earlier, same, spared⟩
  · intro ended
    subst same
    exact stale h fun other => History.not_live_of_ended tells.issuedOnce ended
  · rw [Arena.remove, stale h gone, Option.map_none]
  · rw [Arena.remove, (tells.get?_iff h value).mpr live]
    exact ⟨_, rfl⟩
  · rw [wf.mem_entries, tells.get?_iff]

/-- A slot that is used again: the handle of its first object finds nothing, that of its second
object finds it. -/
theorem handles_of_one_slot : ∃ (past : History Nat) (a : Arena Nat), Run Empty past a ∧
    past.issued = [(⟨0x200000000⟩, 9), (⟨0x100000000⟩, 7)] ∧
    (past.issued.map Prod.fst).Nodup ∧ a.get? ⟨0x100000000⟩ = none ∧
    a.get? ⟨0x200000000⟩ = some 9 ∧ a.size = a.values.length := by
  have run := ((((Run.new (ε := Empty)).insertWith (by decide) fun _ => .ok 7).remove
    ⟨0x100000000⟩).insertWith (by decide) fun _ => .ok 9)
  obtain ⟨once, -, found, -, -, -, -, counted, -⟩ := handles_name_once run
  refine ⟨_, _, run, rfl, once, ?_, ?_, counted⟩
  · exact (found [_, _] [] ⟨0x100000000⟩ 7 rfl).2 ⟨_, .tail _ (.head _), rfl⟩
  · exact (found [] _ ⟨0x200000000⟩ 9 rfl).1 (by simp)

end Arena

end Accelerator
