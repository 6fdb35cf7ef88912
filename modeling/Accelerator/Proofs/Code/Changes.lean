import Accelerator.Proofs.Runs.Hosted
import Accelerator.Proofs.Runs.Refusals

/-!
# What happens to code

The executables of a session, the kernel table and the number of the next kernel belong together.
The application makes executables, loads code objects into them, freezes and destroys them, and in
the end shuts the session down; nothing else that it does has to do with code, and command
processors look kernels up but change none.

Two of these changes last: kernels that were loaded stay in their executable, and a number that was
given to a kernel is used up. A run tells of them in the order in which they happened.

## Code apart from sessions

What holds of code is proved along `Code.Change`, which has six cases. All the operations of a
session come in once, in `Session.Step.code`; an operation that is added to sessions and leaves code
alone changes that lemma and nothing that is built on it.

Destroying an executable is no event. Whoever holds on to it can still ask for its kernels, and
their numbers stay used up, so nothing that was loaded or frozen is undone.

## Main definitions

* `Code`, `Session.code`: the part of a session that has to do with code.
* `CodeEvent`, `Turn.codeEvents`: code objects that were loaded, and executables that were frozen.
* `Code.Change`: what can happen to code.
* `Session.CodeRun`: a run of a session, with the events on the way.

## Main results

* `Session.Step.code`: whatever happens in a session is a change of its code, or none.
-/

namespace Accelerator

/-- Executables, and the kernels that dispatch packets can name. -/
structure Code where
  executables : Directory Executable
  kernels : KernelTable
  nextKernelObject : UInt64

/-- Something done with code that lasts. -/
inductive CodeEvent where
  /-- A code object was loaded into an executable for an agent. -/
  | loaded (executable agent : Handle) (code : CodeObject)
  /-- An executable with so many kernels was frozen. -/
  | froze (executable : Handle) (kernels : Nat)

namespace CodeEvent

/-- The number of kernels that were frozen. -/
def frozen : CodeEvent → Nat
  | loaded _ _ _ => 0
  | froze _ kernels => kernels

/-- The number of kernels that were frozen in total. -/
def frozenTotal (events : List CodeEvent) : Nat :=
  (events.map frozen).sum

@[simp] theorem frozenTotal_append (events more : List CodeEvent) :
    frozenTotal (events ++ more) = frozenTotal events + frozenTotal more := by
  simp [frozenTotal]

end CodeEvent

/-! ### Executables -/

namespace Executable

variable {e e' : Executable} {agent : Handle} {code : CodeObject} {first : UInt64}

/-- Kernels are added behind those that were loaded before. -/
theorem load_eq_ok (loaded : e.load agent code = .ok e') :
    e.frozen = false ∧
      e' = { e with symbols := e.symbols ++ code.kernels.map fun k => ⟨agent, k, 0⟩ } := by
  rw [load] at loaded
  split at loaded
  · cases loaded
  case isFalse thawed =>
    split at loaded
    · cases loaded
    · cases loaded
      exact ⟨Bool.eq_false_iff.mpr thawed, rfl⟩

theorem freeze_eq_ok (froze : e.freeze first = .ok e') :
    e.frozen = false ∧ e' = { e with frozen := true, symbols := number first e.symbols } := by
  rw [freeze] at froze
  split at froze
  · cases froze
  case isFalse thawed =>
    cases froze
    exact ⟨Bool.eq_false_iff.mpr thawed, rfl⟩

/-- Kernels are numbered in order, and keep their places. -/
theorem getElem?_number (first : UInt64) (symbols : List Symbol) (i : Nat) :
    (number first symbols)[i]? = symbols[i]?.map fun symbol =>
      { symbol with kernelObject := first + objectStride * UInt64.ofNat i } := by
  induction symbols generalizing first i with
  | nil => rfl
  | cons symbol rest ih =>
    cases i with
    | zero => simp [number]
    | succ i =>
      have next : first + objectStride + objectStride * UInt64.ofNat i =
          first + objectStride * UInt64.ofNat (i + 1) := by
        rw [UInt64.ofNat_add, UInt64.mul_add, UInt64.add_assoc,
          UInt64.add_comm (objectStride * UInt64.ofNat i)]
        rfl
      rw [number, List.getElem?_cons_succ, List.getElem?_cons_succ, ih, next]

@[simp] theorem length_number (first : UInt64) (symbols : List Symbol) :
    (number first symbols).length = symbols.length := by
  induction symbols generalizing first with
  | nil => rfl
  | cons symbol rest ih => rw [number, List.length_cons, List.length_cons, ih]

end Executable

/-! ### Changes -/

/-- What can happen to code, with the events that last. -/
inductive Code.Change (c : Code) : List CodeEvent → Code → Prop where
  | nothing : Change c [] c
  | create (room : c.executables.live.slots.size < 2 ^ 32) :
      Change c []
        { c with executables := c.executables.insert (.ofHandle c.executables.nextHandle) }
  | load {h agent : Handle} {code : CodeObject} {e e' : Executable}
      (live : c.executables.get? h = some e) (loaded : e.load agent code = .ok e') :
      Change c [.loaded h agent code]
        { c with executables := c.executables.modify h fun _ => e' }
  | freeze {h : Handle} {e e' : Executable} (live : c.executables.get? h = some e)
      (froze : e.freeze c.nextKernelObject = .ok e') :
      Change c [.froze h e.symbols.length]
        { executables := c.executables.modify h fun _ => e'
          kernels := c.kernels.add e'.table
          nextKernelObject := c.nextKernelObject +
            Executable.objectStride * UInt64.ofNat e.symbols.length }
  | destroy {h : Handle} {e : Executable} {executables : Directory Executable}
      (removed : c.executables.remove h id = some (e, executables)) :
      Change c [] { c with executables, kernels := c.kernels.withdraw e.table }
  | drain : Change c [] { c with executables := c.executables.drain id, kernels := [] }

/-- Executables know their handles, whatever happens to code. -/
theorem Code.Change.wellFormed {c d : Code} {events : List CodeEvent}
    (change : c.Change events d) (wf : c.executables.WellFormed Executable.handle) :
    d.executables.WellFormed Executable.handle := by
  cases change with
  | nothing => exact wf
  | create room => exact wf.insert room rfl
  | load live loaded =>
    refine wf.modify fun e found => ?_
    rw [(Executable.load_eq_ok loaded).2, Option.some.inj (found.symm.trans live)]
  | freeze live froze =>
    refine wf.modify fun e found => ?_
    rw [(Executable.freeze_eq_ok froze).2, Option.some.inj (found.symm.trans live)]
  | destroy removed => exact wf.remove (fun _ => rfl) removed
  | drain => exact wf.drain fun _ => rfl

/-- The events of a turn: code objects that are loaded, and executables that are frozen. -/
def Turn.codeEvents (s : Session) : Turn → List CodeEvent
  | application (.loadCode h agent code) =>
    match (Session.loadCode h agent code s).1 with
    | .ok _ => [.loaded h agent code]
    | .error _ => []
  | application (.freezeExecutable h) =>
    match (Session.freezeExecutable h s).1, s.executables.get? h with
    | .ok _, some e => [.froze h e.symbols.length]
    | _, _ => []
  | _ => []

namespace Session

open Accelerator.Action

variable {s t : Session} {h : Handle} {q : Queue} {p : Processor}

/-- The part of a session that has to do with code. -/
def code (s : Session) : Code :=
  ⟨s.executables, s.kernels, s.nextKernelObject⟩

/-! ### Whatever leaves code alone -/

theorem Routine.code {touched : Handle → Prop} (routine : s.Routine touched t) :
    t.code = s.code := by
  induction routine with
  | refl s => rfl
  | trans _ _ first second => exact second.trans first
  | setSignal | dropSignal | fill | tick | ring | inactivate => rfl

theorem code_giveUpPlace (s : Session) (q : Queue) : (s.giveUpPlace q).code = s.code := by
  rcases s.giveUpPlace_cases q with ⟨a, signals, -, same⟩ | ⟨-, same⟩
  · rw [same]
    rfl
  · rw [same]
    rfl

theorem code_tearDown (s : Session) (q : Queue) : (s.tearDown q).code = s.code := by
  rcases s.tearDown_cases q with ⟨same, -⟩ | ⟨address, a, memory, -, -, same⟩
  · rw [same, code_giveUpPlace]
  · rw [same]
    exact s.code_giveUpPlace q

theorem code_withoutQueues (s : Session) : s.withoutQueues.code = s.code := by
  have each : ∀ (qs : List Queue) (m : Session), (qs.foldl tearDown m).code = m.code := by
    intro qs
    induction qs with
    | nil => exact fun m => rfl
    | cons q rest ih => exact fun m => (ih _).trans (m.code_tearDown q)
  exact each s.queues.values { s with queues := s.queues.drain Queue.destroy }

/-- Shutting down takes all executables out and all kernels from the table; the numbers that were
given stay used up. -/
theorem code_ended (s : Session) : s.ended.code =
    { s.code with executables := s.executables.drain id, kernels := [] } := by
  have same := s.code_withoutQueues
  rw [ended, releaseMemory_eq]
  show Code.mk (s.withoutQueues.code.executables.drain id) []
    s.withoutQueues.code.nextKernelObject = _
  rw [same]
  rfl

theorem code_act (s : Session) (d : Deed) : (d.act s).code = s.code := by
  cases d with
  | ran | failed => rfl
  | completed index signal => cases signal <;> rfl

/-- Command processors change no code. -/
theorem Move.code {deeds : List Deed} (move : s.Move q p deeds t) : t.code = s.code := by
  have all : ∀ (deeds : List Deed) (m : Session), (deeds.foldl Deed.act m).code = m.code := by
    intro deeds
    induction deeds with
    | nil => exact fun m => rfl
    | cons d rest ih => exact fun m => (ih _).trans (m.code_act d)
  exact (congrArg Session.code move.acts).trans (all deeds s)

/-- An operation that has not to do with code changes none, but for shutting down. -/
theorem Effect.code (effect : s.Effect t) : s.code.Change [] t.code := by
  cases effect with
  | routine routine => exact routine.code ▸ .nothing
  | createSignal | allocate | free | assign | serve | register | createQueue | createSoftQueue =>
    exact .nothing
  | @destroyQueue h q queues => exact code_tearDown { s with queues } q ▸ .nothing
  | withdrawQueue =>
    rw [code_tearDown]
    exact .nothing
  | shutDown => exact s.code_ended ▸ .drain

/-! ### Operations on code -/

theorem change_createExecutable (room : s.executables.live.slots.size < 2 ^ 32) :
    s.code.Change [] (createExecutable s).2.code := by
  rcases keeps_ensureOpen.answers s with ⟨_, opened⟩ | ⟨e, closed⟩
  · rw [createExecutable, bind_of_ok opened]
    exact .create room
  · rw [createExecutable, bind_of_error closed]
    exact .nothing

/-- Code is loaded for agents of its instruction set. -/
theorem loadCode_eq_ok (wf : s.WellFormed) {agentHandle : Handle} {code : CodeObject} {u : Unit}
    (answer : loadCode h agentHandle code s = (.ok u, t)) :
    ∃ e e' a, s.executables.get? h = some e ∧ s.agents.get? agentHandle = some a ∧
      code.isa = a.info.isa ∧ e.load agentHandle code = .ok e' ∧
      t = s.modifyExecutable h fun _ => e' := by
  simp only [loadCode, bind_eq_ok, require_eq_ok, liftM_eq_ok, change_eq_ok] at answer
  obtain ⟨e, _, found, a, _, hosted, _, _, ⟨-, rfl⟩, _, _, ⟨suits, rfl⟩, e', _, ⟨loaded, rfl⟩,
    rfl⟩ := answer
  obtain ⟨-, live, rfl⟩ := executable_eq_ok found
  obtain ⟨-, host, rfl⟩ := agent_eq_ok hosted
  rw [wf.agents agentHandle a host] at loaded
  exact ⟨e, e', a, live, host, eq_of_beq suits, loaded, rfl⟩

theorem change_loadCode (wf : s.WellFormed) (h agentHandle : Handle) (code : CodeObject) :
    s.code.Change (Turn.codeEvents s (.application (.loadCode h agentHandle code)))
      (loadCode h agentHandle code s).2.code := by
  rw [Turn.codeEvents]
  rcases answer : loadCode h agentHandle code s with ⟨e | u, t⟩
  · obtain rfl := (Request.loadCode h agentHandle code).atomic id s e t answer
    exact .nothing
  · obtain ⟨e, e', a, live, -, -, loaded, rfl⟩ := loadCode_eq_ok wf answer
    exact .load live loaded

theorem freezeExecutable_eq_ok {u : Unit} (answer : freezeExecutable h s = (.ok u, t)) :
    ∃ e e', s.executables.get? h = some e ∧ e.freeze s.nextKernelObject = .ok e' ∧
      t.code = { executables := s.executables.modify h fun _ => e'
                 kernels := s.kernels.add e'.table
                 nextKernelObject := s.nextKernelObject +
                   Executable.objectStride * UInt64.ofNat e'.symbols.length } := by
  simp only [freezeExecutable, bind_eq_ok, session_eq_ok, liftM_eq_ok, change_eq_ok] at answer
  obtain ⟨e, _, found, _, _, ⟨rfl, rfl⟩, e', _, ⟨froze, rfl⟩, rfl⟩ := answer
  obtain ⟨-, live, rfl⟩ := executable_eq_ok found
  exact ⟨e, e', live, froze, rfl⟩

theorem change_freezeExecutable (s : Session) (h : Handle) :
    s.code.Change (Turn.codeEvents s (.application (.freezeExecutable h)))
      (freezeExecutable h s).2.code := by
  rw [Turn.codeEvents]
  rcases answer : freezeExecutable h s with ⟨e | u, t⟩
  · obtain rfl := (Request.freezeExecutable h).atomic id s e t answer
    exact .nothing
  · obtain ⟨e, e', live, froze, after⟩ := freezeExecutable_eq_ok answer
    have as_many : e'.symbols.length = e.symbols.length := by
      rw [(Executable.freeze_eq_ok froze).2]
      exact Executable.length_number ..
    dsimp only
    rw [after, live, as_many]
    exact .freeze live froze

theorem change_destroyExecutable (s : Session) (h : Handle) :
    s.code.Change [] (destroyExecutable h s).2.code := by
  rcases keeps_ensureOpen.answers s with ⟨_, opened⟩ | ⟨e, closed⟩
  · rw [destroyExecutable, bind_of_ok opened, bind_apply, session_apply]
    dsimp only
    cases removed : s.executables.remove h id with
    | none => exact .nothing
    | some found => exact .destroy removed
  · rw [destroyExecutable, bind_of_error closed]
    exact .nothing

/-- Only what is done with code tells of an event. -/
theorem codeEvents_of_other {o : Operation} (other : ¬ o.LoadsCode) :
    Turn.codeEvents s (.application o) = [] := by
  cases o with
  | loadCode | freezeExecutable => exact (other trivial).elim
  | _ => rfl

/-- Whatever happens in a session is a change of its code, or none. -/
theorem Step.code {turn : Turn} (step : Step turn s t) (wf : s.WellFormed) :
    s.code.Change (turn.codeEvents s) t.code := by
  cases step with
  | @application _ o room =>
    by_cases loads : o.LoadsCode
    · cases o with
      | createExecutable => exact change_createExecutable room.2.2
      | loadCode h agent code => exact change_loadCode wf h agent code
      | freezeExecutable h => exact change_freezeExecutable s h
      | destroyExecutable h => exact change_destroyExecutable s h
      | _ => exact loads.elim
    · rw [codeEvents_of_other loads]
      exact (effect_perform room wf.queues loads).code
  | processor live stepped =>
    obtain ⟨p, deeds, -, move⟩ := Move.exists_of_stepProcessor? stepped
    exact move.code ▸ .nothing

/-! ### Runs -/

/-- Along a run executables know their handles. -/
theorem Reachable.executables (reachable : s.Reachable) :
    s.executables.WellFormed Executable.handle := by
  induction reachable with
  | opened opened =>
    rw [openConfig_eq_ok opened]
    exact Directory.wellFormed_empty
  | rehost _ _ wf => exact wf
  | step before step wf => exact (step.code before.wellFormed).wellFormed wf

/-- A run of a session, with what was done with code on the way. -/
inductive CodeRun : List CodeEvent → Session → Session → Prop where
  | refl (s : Session) : CodeRun [] s s
  | rehost {events : List CodeEvent} {s t : Session} (before : CodeRun events s t) (host : Host) :
      CodeRun events s (t.rehost host)
  | step {events : List CodeEvent} {s t u : Session} {turn : Turn} (before : CodeRun events s t)
      (step : Step turn t u) : CodeRun (events ++ turn.codeEvents t) s u

theorem CodeRun.reachable {events : List CodeEvent} (run : CodeRun events s t)
    (reachable : s.Reachable) : t.Reachable := by
  induction run with
  | refl s => exact reachable
  | rehost _ host ih => exact (ih reachable).rehost host
  | step before step ih => exact (ih reachable).step step

end Session

end Accelerator
