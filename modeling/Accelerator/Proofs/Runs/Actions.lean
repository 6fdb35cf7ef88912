import Accelerator.Proofs.Handles.Arena
import Accelerator.Session.Consumer
import Accelerator.Session.Executables
import Mathlib.Order.Defs.Unbundled

/-!
# Reasoning about actions

An action is a chain of checks and changes. Two things are asked of it: what it answers when all
checks pass, and what it does to the session in any case, also when it ends half-way with a fault.
For the first, an action that gives an answer is taken apart into its steps. For the second, an
action *keeps* a relation between the session before it and the session after it if each of its
steps does, provided that the relation is reflexive and transitive.

## Why relations

Most of what is shown of actions is of one form: whatever the answer, the session after it is
related in some way to the session before it. As long as the relation is a preorder it is kept by a
chain if it is kept by its parts, also where the chain ends early. So each action has one short
proof for each relation, and no proof goes through the outcomes of a chain one by one.

## Main definitions

* `Action.Keeps`: an action leads from each session to a related one.
* `Session.SameQueues`: the queues, and what the application has been told of them, are as before.
* `Session.Reloads`: only executables and the kernel table may have changed.

## Main results

* `Action.bind_eq_ok`, `Action.Keeps.bind`: both ways of going through a chain.
* `Session.queue_eq_ok` and its like: when a check passes.
* `Session.keeps_createSignal` and its like: actions that have nothing to do with queues.
* `Session.keeps_loadCode` and its like: actions that have to do with code only.
-/

namespace Accelerator

namespace Action

variable {α β : Type} {x : Action α} {f : α → Action β} {s t : Session}

/-! ### Answers -/

theorem bind_of_ok {a : α} (first : x s = (.ok a, t)) : (x >>= f) s = f a t := by
  rw [bind_apply, first]

theorem bind_of_error {e : Fault} (first : x s = (.error e, t)) :
    (x >>= f) s = (.error e, t) := by
  rw [bind_apply, first]

/-- A chain gives an answer if its first action does and the rest does from there. -/
theorem bind_eq_ok {b : β} :
    (x >>= f) s = (.ok b, t) ↔ ∃ a m, x s = (.ok a, m) ∧ f a m = (.ok b, t) := by
  rw [bind_apply]
  constructor
  · rcases x s with ⟨_ | a, m⟩
    · exact fun fault => by cases fault
    · exact fun rest => ⟨a, m, rfl, rest⟩
  · rintro ⟨a, m, first, rest⟩
    rw [first]
    exact rest

/-- What comes after an action matters only where the action leads to. -/
theorem bind_congr_at {g : α → Action β} (same : ∀ a t, x s = (.ok a, t) → f a t = g a t) :
    (x >>= f) s = (x >>= g) s := by
  rw [bind_apply, bind_apply]
  rcases first : x s with ⟨_ | a, t⟩
  · rfl
  · exact same a t first

theorem pure_eq_ok {a b : α} : (pure a : Action α) s = (.ok b, t) ↔ a = b ∧ s = t := by
  simp

theorem session_eq_ok {a : Session} : session s = (.ok a, t) ↔ s = a ∧ s = t := by
  simp

theorem change_eq_ok {g : Session → Session} {u : Unit} :
    change g s = (.ok u, t) ↔ g s = t := by
  simp

theorem require_eq_ok {p : Bool} {e : Fault} {u : Unit} :
    require p e s = (.ok u, t) ↔ p = true ∧ s = t := by
  cases p <;> simp [require, Action.pure]

theorem demand_eq_ok {o : Option α} {e : Fault} {a : α} :
    demand o e s = (.ok a, t) ↔ o = some a ∧ s = t := by
  cases o <;> simp [demand, Action.pure]

theorem liftM_eq_ok {o : Except Fault α} {a : α} :
    (liftM o : Action α) s = (.ok a, t) ↔ o = .ok a ∧ s = t :=
  Prod.mk_inj

/-! ### Changes -/

variable {R : Session → Session → Prop}

/-- The action leads from each session to a related one, whether it gives an answer or a fault. -/
def Keeps (R : Session → Session → Prop) (x : Action α) : Prop :=
  ∀ s, R s (x s).2

theorem Keeps.mono {R' : Session → Session → Prop} (hx : Keeps R x)
    (more : ∀ s t, R s t → R' s t) : Keeps R' x :=
  fun s => more _ _ (hx s)

theorem Keeps.of_eq (hx : Keeps R x) {answer : Except Fault α} (ran : x s = (answer, t)) :
    R s t := by
  have kept := hx s
  rwa [ran] at kept

/-- An action that only looks comes to an answer or to a fault, and the session stays as it is. -/
theorem Keeps.answers (looks : Keeps Eq x) (s : Session) :
    (∃ a, x s = (.ok a, s)) ∨ ∃ e, x s = (.error e, s) := by
  have same : s = (x s).2 := looks s
  rcases answer : x s with ⟨e | a, t⟩
  · rw [answer] at same
    exact .inr ⟨e, by rw [same]⟩
  · rw [answer] at same
    exact .inl ⟨a, by rw [same]⟩

/-- The first action looks at the session only. -/
theorem Keeps.bind_session {g : Session → Action β} (h : ∀ s, R s (g s s).2) :
    Keeps R (session >>= g) := h

theorem keeps_change {g : Session → Session} (h : ∀ s, R s (g s)) : Keeps R (change g) := h

section Preorder

variable [IsPreorder Session R]

theorem keeps_pure (a : α) : Keeps R (pure a : Action α) := fun s => refl_of R s

theorem keeps_refuse (e : Fault) : Keeps R (refuse e : Action α) := fun s => refl_of R s

theorem keeps_session : Keeps R session := fun s => refl_of R s

theorem keeps_require (p : Bool) (e : Fault) : Keeps R (require p e) := fun s => by
  cases p <;> exact refl_of R s

theorem keeps_demand (o : Option α) (e : Fault) : Keeps R (demand o e) := fun s => by
  cases o <;> exact refl_of R s

theorem keeps_liftM (o : Except Fault α) : Keeps R (liftM o : Action α) := fun s => refl_of R s

theorem Keeps.bind (hx : Keeps R x) (hf : ∀ a, Keeps R (f a)) : Keeps R (x >>= f) := fun s => by
  have first := hx s
  rw [bind_apply]
  generalize x s = after at first
  match after, first with
  | (.ok a, m), first => exact trans_of R first (hf a m)
  | (.error e, m), first => exact first

theorem Keeps.discard (hx : Keeps R x) : Keeps R (discard x) :=
  hx.bind fun _ => keeps_pure _

theorem keeps_forM {action : α → Action PUnit} (h : ∀ a, Keeps R (action a)) (as : List α) :
    Keeps R (as.forM action) := by
  induction as with
  | nil => exact keeps_pure _
  | cons a rest ih => exact (h a).bind fun _ => ih

end Preorder

end Action

namespace Session

open Accelerator.Action

variable {h : Handle} {s t : Session}

/-! ### Checks -/

theorem ensureOpen_eq_ok {u : Unit} : ensureOpen s = (.ok u, t) ↔ s.isOpen = true ∧ s = t := by
  rw [ensureOpen, bind_eq_ok]
  simp only [session_eq_ok, require_eq_ok]
  constructor
  · rintro ⟨_, _, ⟨rfl, rfl⟩, isOpen, rfl⟩
    exact ⟨isOpen, rfl⟩
  · rintro ⟨isOpen, rfl⟩
    exact ⟨s, s, ⟨rfl, rfl⟩, isOpen, rfl⟩

theorem queue_eq_ok {q : Queue} :
    queue h s = (.ok q, t) ↔ s.isOpen = true ∧ s.queues.get? h = some q ∧ s = t := by
  rw [queue, bind_eq_ok]
  simp only [ensureOpen_eq_ok, bind_eq_ok, session_eq_ok, demand_eq_ok]
  constructor
  · rintro ⟨_, _, ⟨isOpen, rfl⟩, _, _, ⟨rfl, rfl⟩, live, rfl⟩
    exact ⟨isOpen, live, rfl⟩
  · rintro ⟨isOpen, live, rfl⟩
    exact ⟨(), s, ⟨isOpen, rfl⟩, s, s, ⟨rfl, rfl⟩, live, rfl⟩

theorem activeQueue_eq_ok {q : Queue} : activeQueue h s = (.ok q, t) ↔
    s.isOpen = true ∧ s.queues.get? h = some q ∧ q.isActive = true ∧ s = t := by
  rw [activeQueue, bind_eq_ok]
  simp only [queue_eq_ok, bind_eq_ok, require_eq_ok, pure_eq_ok]
  constructor
  · rintro ⟨_, _, ⟨isOpen, live, rfl⟩, _, _, ⟨active, rfl⟩, rfl, rfl⟩
    exact ⟨isOpen, live, active, rfl⟩
  · rintro ⟨isOpen, live, active, rfl⟩
    exact ⟨q, s, ⟨isOpen, live, rfl⟩, (), s, ⟨active, rfl⟩, rfl, rfl⟩

theorem agent_eq_ok {a : Agent} (found : agent h s = (.ok a, t)) :
    s.isOpen = true ∧ s.agents.get? h = some a ∧ s = t := by
  simp only [agent, bind_eq_ok, ensureOpen_eq_ok, session_eq_ok, demand_eq_ok] at found
  obtain ⟨_, _, ⟨isOpen, rfl⟩, _, _, ⟨rfl, rfl⟩, live, rfl⟩ := found
  exact ⟨isOpen, live, rfl⟩

theorem region_eq_ok {r : Region} (found : region h s = (.ok r, t)) :
    s.isOpen = true ∧ s.regions.get? h = some r ∧ s = t := by
  simp only [region, bind_eq_ok, ensureOpen_eq_ok, session_eq_ok, demand_eq_ok] at found
  obtain ⟨_, _, ⟨isOpen, rfl⟩, _, _, ⟨rfl, rfl⟩, live, rfl⟩ := found
  exact ⟨isOpen, live, rfl⟩

theorem executable_eq_ok {e : Executable} (found : executable h s = (.ok e, t)) :
    s.isOpen = true ∧ s.executables.get? h = some e ∧ s = t := by
  simp only [executable, bind_eq_ok, ensureOpen_eq_ok, session_eq_ok, demand_eq_ok] at found
  obtain ⟨_, _, ⟨isOpen, rfl⟩, _, _, ⟨rfl, rfl⟩, live, rfl⟩ := found
  exact ⟨isOpen, live, rfl⟩

section Preorder

variable {R : Session → Session → Prop} [IsPreorder Session R]

theorem keeps_ensureOpen : Keeps R ensureOpen :=
  keeps_session.bind fun _ => keeps_require _ _

theorem keeps_agent (h : Handle) : Keeps R (agent h) :=
  keeps_ensureOpen.bind fun _ => keeps_session.bind fun _ => keeps_demand _ _

theorem keeps_region (h : Handle) : Keeps R (region h) :=
  keeps_ensureOpen.bind fun _ => keeps_session.bind fun _ => keeps_demand _ _

theorem keeps_signal (h : Handle) : Keeps R (signal h) :=
  keeps_ensureOpen.bind fun _ => keeps_session.bind fun _ => keeps_demand _ _

theorem keeps_queue (h : Handle) : Keeps R (queue h) :=
  keeps_ensureOpen.bind fun _ => keeps_session.bind fun _ => keeps_demand _ _

theorem keeps_executable (h : Handle) : Keeps R (executable h) :=
  keeps_ensureOpen.bind fun _ => keeps_session.bind fun _ => keeps_demand _ _

theorem keeps_activeQueue (h : Handle) : Keeps R (activeQueue h) :=
  (keeps_queue h).bind fun _ => (keeps_require _ _).bind fun _ => keeps_pure _

end Preorder

/-- A queue is found, or there is a fault; the session stays as it is. -/
theorem queue_cases (h : Handle) (s : Session) :
    (∃ q, s.isOpen = true ∧ s.queues.get? h = some q ∧ queue h s = (.ok q, s)) ∨
      ∃ e, queue h s = (.error e, s) := by
  rcases (keeps_queue h).answers s with ⟨q, found⟩ | missing
  · obtain ⟨isOpen, live, -⟩ := queue_eq_ok.mp found
    exact .inl ⟨q, isOpen, live, found⟩
  · exact .inr missing

/-! ### Actions that have nothing to do with queues -/

/-- The agents are as before but for the number of their queues. -/
def SameAgents (s t : Session) : Prop :=
  ∀ h, (t.agents.get? h).map (fun a => (a.handle, a.info)) =
    (s.agents.get? h).map fun a => (a.handle, a.info)

/-- The queues, their agents, and what the application has been told of them, are as before. -/
structure SameQueues (s t : Session) : Prop where
  queues : t.queues = s.queues
  notices : t.notices = s.notices
  isOpen : t.isOpen = s.isOpen
  agents : s.SameAgents t

instance : IsPreorder Session SameQueues where
  refl _ := ⟨rfl, rfl, rfl, fun _ => rfl⟩
  trans _ _ _ first second :=
    { queues := second.queues.trans first.queues
      notices := second.notices.trans first.notices
      isOpen := second.isOpen.trans first.isOpen
      agents := fun h => (second.agents h).trans (first.agents h) }

/-- Counting the queues of an agent is no change of the agent. -/
theorem sameQueues_modifyAgent (s : Session) (h : Handle) {f : Agent → Agent}
    (kept : ∀ a, (f a).handle = a.handle ∧ (f a).info = a.info) :
    s.SameQueues (s.modifyAgent h f) :=
  ⟨rfl, rfl, rfl, Arena.map_get?_modify (fun a => Prod.ext (kept a).1 (kept a).2) s.agents h⟩

theorem SameQueues.trans {u : Session} (first : s.SameQueues t) (second : t.SameQueues u) :
    s.SameQueues u :=
  trans_of SameQueues first second

theorem sameQueues_foldl {α : Type} {f : Session → α → Session}
    (h : ∀ (s : Session) a, s.SameQueues (f s a)) (as : List α) (s : Session) :
    s.SameQueues (as.foldl f s) := by
  induction as generalizing s with
  | nil => exact refl_of SameQueues s
  | cons a rest ih => exact (h s a).trans (ih _)

theorem keeps_createSignal (initial : Int64) (count : UInt32) (consumers : List Handle) :
    Keeps SameQueues (createSignal initial count consumers) :=
  keeps_ensureOpen.bind fun _ => (keeps_require _ _).bind fun _ =>
    (keeps_forM (fun h => (keeps_agent h).discard) _).bind fun _ => keeps_session.bind fun _ =>
      (keeps_change fun _ => ⟨rfl, rfl, rfl, fun _ => rfl⟩).bind fun _ => keeps_pure _

theorem keeps_freeBlock (address : UInt64) (usage : AllocationUse) :
    Keeps SameQueues (freeBlock address usage) :=
  keeps_session.bind fun _ => (keeps_liftM _).bind fun _ =>
    keeps_change fun _ => ⟨rfl, rfl, rfl, fun _ => rfl⟩

theorem keeps_free (address : UInt64) : Keeps SameQueues (free address) :=
  keeps_ensureOpen.bind fun _ => keeps_freeBlock _ _

/-- Taking a block from a region leaves the queues. -/
theorem sameQueues_allocateFrom {r : Region} {size alignment start rounded : UInt64}
    {usage : AllocationUse}
    (taken : s.allocateFrom r size alignment usage = .ok (start, rounded, t)) :
    SameQueues s t := by
  rw [allocateFrom] at taken
  cases memory : s.memory.allocate r size alignment usage with
  | error cause => rw [memory] at taken; cases taken
  | ok block =>
    rw [memory] at taken
    cases taken
    exact ⟨rfl, rfl, rfl, fun _ => rfl⟩

theorem keeps_allocate (h : Handle) (size : UInt64) : Keeps SameQueues (allocate h size) :=
  (keeps_region h).bind fun r => .bind_session fun s => by
    cases taken : s.allocateFrom r size r.info.alignment .application with
    | error cause => exact refl_of SameQueues s
    | ok block => exact sameQueues_allocateFrom taken

theorem keeps_assign (address : UInt64) (h : Handle) (access : AccessPermission) :
    Keeps SameQueues (assign address h access) :=
  (keeps_agent h).bind fun _ => keeps_session.bind fun _ => (keeps_liftM _).bind fun _ =>
    keeps_change fun _ => ⟨rfl, rfl, rfl, fun _ => rfl⟩

theorem keeps_register (address size : UInt64) : Keeps SameQueues (register address size) :=
  keeps_ensureOpen.bind fun _ => keeps_session.bind fun _ => (keeps_liftM _).bind fun _ =>
    keeps_change fun _ => ⟨rfl, rfl, rfl, fun _ => rfl⟩

theorem keeps_deregister (address size : UInt64) : Keeps SameQueues (deregister address size) :=
  keeps_ensureOpen.bind fun _ => keeps_session.bind fun _ => (keeps_liftM _).bind fun _ =>
    keeps_change fun _ => ⟨rfl, rfl, rfl, fun _ => rfl⟩

/-! ### Actions that have to do with code only -/

/-- Nothing has changed but the executables and the kernel table. -/
def Reloads (s t : Session) : Prop :=
  ∃ executables kernels nextKernelObject, t = { s with executables, kernels, nextKernelObject }

instance : IsPreorder Session Reloads where
  refl s := ⟨s.executables, s.kernels, s.nextKernelObject, rfl⟩
  trans _ _ _ first second := by
    obtain ⟨_, _, _, rfl⟩ := first
    obtain ⟨_, _, _, rfl⟩ := second
    exact ⟨_, _, _, rfl⟩

theorem Reloads.sameQueues (reloads : s.Reloads t) : s.SameQueues t := by
  obtain ⟨_, _, _, rfl⟩ := reloads
  exact ⟨rfl, rfl, rfl, fun _ => rfl⟩

theorem keeps_createExecutable : Keeps Reloads createExecutable :=
  keeps_ensureOpen.bind fun _ => keeps_session.bind fun _ =>
    (keeps_change fun _ => ⟨_, _, _, rfl⟩).bind fun _ => keeps_pure _

theorem keeps_loadCode (h agentHandle : Handle) (code : CodeObject) :
    Keeps Reloads (loadCode h agentHandle code) :=
  (keeps_executable h).bind fun _ => (keeps_agent agentHandle).bind fun _ =>
    (keeps_require _ _).bind fun _ => (keeps_require _ _).bind fun _ =>
      (keeps_liftM _).bind fun _ => keeps_change fun _ => ⟨_, _, _, rfl⟩

theorem keeps_freezeExecutable (h : Handle) : Keeps Reloads (freezeExecutable h) :=
  (keeps_executable h).bind fun _ => keeps_session.bind fun _ => (keeps_liftM _).bind fun _ =>
    keeps_change fun _ => ⟨_, _, _, rfl⟩

theorem keeps_destroyExecutable (h : Handle) : Keeps Reloads (destroyExecutable h) :=
  keeps_ensureOpen.bind fun _ => keeps_session.bind fun _ => (keeps_demand _ _).bind fun _ =>
    keeps_change fun _ => ⟨_, _, _, rfl⟩

end Session

end Accelerator
