import Accelerator.Proofs.Code.InstructionSets
import Accelerator.Proofs.Runs.Creation

/-!
# The kernels of an executable

An executable collects the kernels of code objects. Loading a code object adds all of its kernels or
none, in their order, for one agent; freezing gives them numbers and leaves the list as it is. So
the list is known from what was loaded: the kernels of the code objects, one after another, whatever
else the application has tried in between.

A kernel is asked for by its name and agent. There is at most one: two kernels of a code object have
different names, which is checked when the code object is built, and a kernel with the name of one
that is already there for the same agent is refused when it is loaded.

## Neither check is enough

Loading compares the kernels of a code object with those that are there already, and not with each
other. Building compares them with each other. Agents and names stay distinct because of both, so
the results on what is found are for runs in which the code objects were built. The result on
loading alone needs no such thing.

`Code.Listed.fresh` carries the induction past the making of an executable: what is loaded is noted
by handle, so a new executable lists nothing only because nothing was noted at its handle before.

## Main definitions

* `CodeObject.Loadable`, `CodeObject.Built`: kernels that may be loaded together.
* `CodeEvent.loadedInto`: the kernels that were loaded into an executable.
* `Code.Listed`: the invariant.
* `Session.loadChecks`: what is checked before a code object is loaded.
* `Session.Lists`: what the application is told of the kernels of an executable.

## Main results

* `CodeObject.build_eq_ok`: which kernels make a code object.
* `Session.checked_loadCode`: all kernels are loaded, or the first check that fails is told.
* `Session.CodeRun.lists`, `Session.CodeRun.keeps_frozen`: what the application is told along a run.
* `Session.CodeRun.lists_what_was_loaded`: all of it, for runs in which built code is loaded.
-/

namespace Accelerator

/-! ### Code objects -/

namespace CodeObject

/-- Kernels that may be loaded together: their names are distinct, and the alignments of their
argument segments are powers of two that are not too large. -/
structure Loadable (kernels : List Kernel) : Prop where
  names : (kernels.map (·.name)).Nodup
  alignments : ∀ k ∈ kernels,
    k.kernargAlignment.toNat.isPowerOfTwo ∧ k.kernargAlignment ≤ maxKernargAlignment

/-- A code object that has been built. -/
def Built (code : CodeObject) : Prop :=
  build code.isa code.kernels = .ok code

theorem loadable_cons {k : Kernel} {rest : List Kernel} : Loadable (k :: rest) ↔
    (k.kernargAlignment.toNat.isPowerOfTwo ∧ k.kernargAlignment ≤ maxKernargAlignment) ∧
      k.name ∉ rest.map (·.name) ∧ Loadable rest := by
  constructor
  · intro loadable
    obtain ⟨apart, names⟩ := List.nodup_cons.mp loadable.names
    obtain ⟨first, others⟩ := List.forall_mem_cons.mp loadable.alignments
    exact ⟨first, apart, names, others⟩
  · rintro ⟨first, apart, names, others⟩
    exact ⟨List.nodup_cons.mpr ⟨apart, names⟩, List.forall_mem_cons.mpr ⟨first, others⟩⟩

theorem checkKernels_eq_ok {seen : List String} {kernels : List Kernel} :
    checkKernels seen kernels = .ok () ↔ Loadable kernels ∧ ∀ k ∈ kernels, k.name ∉ seen := by
  induction kernels generalizing seen with
  | nil => exact ⟨fun _ => ⟨⟨.nil, nofun⟩, nofun⟩, fun _ => rfl⟩
  | cons k rest ih =>
    rw [checkKernels, loadable_cons, List.forall_mem_cons]
    split
    case isTrue bad =>
      refine ⟨nofun, fun ⟨⟨⟨power, small⟩, _⟩, _⟩ => ?_⟩
      exact (bad.elim (absurd power) (UInt32.not_lt.mpr small)).elim
    case isFalse good =>
      rw [not_or, not_not, UInt32.not_lt] at good
      split
      case isTrue used => exact ⟨nofun, fun ⟨_, fresh, _⟩ => absurd used fresh⟩
      case isFalse fresh =>
        rw [ih, forall_notMem_cons]
        tauto

/-- Kernels make a code object exactly if they may be loaded together. -/
theorem build_eq_ok {isa : String} {kernels : List Kernel} {code : CodeObject} :
    build isa kernels = .ok code ↔ Loadable kernels ∧ code = ⟨isa, kernels⟩ := by
  have checked := @checkKernels_eq_ok [] kernels
  rw [build]
  cases answer : checkKernels [] kernels with
  | ok _ =>
    have loadable := (checked.mp answer).1
    exact ⟨fun same => ⟨loadable, (Except.ok.inj same).symm⟩, fun ⟨_, same⟩ => same ▸ rfl⟩
  | error cause =>
    refine ⟨nofun, fun ⟨loadable, _⟩ => ?_⟩
    cases (checked.mpr ⟨loadable, nofun⟩).symm.trans answer

theorem Built.loadable {code : CodeObject} (built : code.Built) : Loadable code.kernels :=
  (build_eq_ok.mp built).1

end CodeObject

/-! ### Symbols -/

/-- The kernel with the agent that it was loaded for. -/
def Symbol.loaded (x : Symbol) : Handle × Kernel :=
  (x.agent, x.kernel)

/-- What a kernel is asked for by. -/
def Symbol.key (x : Symbol) : Handle × String :=
  (x.agent, x.kernel.name)

/-- The kernels that were loaded into an executable, each with its agent: the code objects in order
of loading, and the kernels of each in order. -/
def CodeEvent.loadedInto (h : Handle) (events : List CodeEvent) : List (Handle × Kernel) :=
  events.flatMap fun
    | loaded executable agent code =>
      if executable = h then code.kernels.map fun k => (agent, k) else []
    | froze _ _ => []

theorem CodeEvent.loadedInto_append (h : Handle) (events more : List CodeEvent) :
    loadedInto h (events ++ more) = loadedInto h events ++ loadedInto h more :=
  List.flatMap_append

namespace Executable

variable {e e' : Executable} {agent : Handle} {code : CodeObject} {name : String} {x : Symbol}

/-- Numbering kernels changes nothing else about them. -/
theorem map_number {β : Type} {view : Symbol → β}
    (kept : ∀ x object, view { x with kernelObject := object } = view x) (first : UInt64)
    (symbols : List Symbol) : (number first symbols).map view = symbols.map view := by
  induction symbols generalizing first with
  | nil => rfl
  | cons x rest ih => rw [number, List.map_cons, List.map_cons, ih, kept]

/-- A kernel is found by its agent and its name, if no two have both in common. -/
theorem symbol?_eq_some (distinct : (e.symbols.map Symbol.key).Nodup) :
    e.symbol? name agent = some x ↔ x ∈ e.symbols ∧ x.agent = agent ∧ x.kernel.name = name := by
  have passes : ∀ y : Symbol,
      (y.agent == agent && y.kernel.name == name) = true ↔ y.key = (agent, name) := by
    intro y
    rw [Bool.and_eq_true, beq_iff_eq, beq_iff_eq, Symbol.key, Prod.mk.injEq]
  have key : x.agent = agent ∧ x.kernel.name = name ↔ x.key = (agent, name) := by
    rw [Symbol.key, Prod.mk.injEq]
  rw [symbol?, key]
  constructor
  · intro found
    have named := List.find?_some found
    exact ⟨List.mem_of_find?_eq_some found, (passes x).mp named⟩
  · rintro ⟨listed, named⟩
    cases found : e.symbols.find? fun y => y.agent == agent && y.kernel.name == name with
    | none => exact absurd ((passes x).mpr named) (List.find?_eq_none.mp found x listed)
    | some y =>
      have named' := List.find?_some found
      have same : y.key = x.key := ((passes y).mp named').trans named.symm
      rw [List.inj_on_of_nodup_map distinct (List.mem_of_find?_eq_some found) listed same]

theorem isSome_symbol? : (e.symbol? name agent).isSome = true ↔
    (agent, name) ∈ e.symbols.map Symbol.key := by
  rw [symbol?, List.find?_isSome, List.mem_map]
  simp [Symbol.key]

/-- No kernel of a code object that is loaded was there before. -/
theorem not_mem_of_load (loaded : e.load agent code = .ok e') :
    ∀ k ∈ code.kernels, (agent, k.name) ∉ e.symbols.map Symbol.key := by
  rw [load] at loaded
  split at loaded
  · cases loaded
  split at loaded
  case h_1 => cases loaded
  case h_2 none =>
    intro k listed
    rw [← isSome_symbol?]
    exact List.find?_eq_none.mp none k listed

/-- Loading keeps agents and names distinct: those of a code object are, and none of them was there
before. -/
theorem nodup_load (loaded : e.load agent code = .ok e') (built : code.Built)
    (distinct : (e.symbols.map Symbol.key).Nodup) : (e'.symbols.map Symbol.key).Nodup := by
  have before := not_mem_of_load loaded
  obtain ⟨-, rfl⟩ := load_eq_ok loaded
  have added : (code.kernels.map (Symbol.key ∘ fun k => ⟨agent, k, 0⟩)) =
      (code.kernels.map (·.name)).map (agent, ·) := by
    rw [List.map_map]
    rfl
  rw [List.map_append, List.map_map, added]
  refine distinct.append (built.loadable.names.map (Prod.mk_right_injective agent)) ?_
  intro key old new
  obtain ⟨name, named, rfl⟩ := List.mem_map.mp new
  obtain ⟨k, listed, rfl⟩ := List.mem_map.mp named
  exact before k listed old

end Executable

/-! ### What executables list -/

namespace Code

variable {c d : Code} {events more : List CodeEvent} {h : Handle} {e : Executable}

/-- Executables list what was loaded into them, and no kernel twice; where there is no executable,
nothing was loaded. -/
structure Listed (events : List CodeEvent) (c : Code) : Prop where
  listed : ∀ h e, c.executables.held? h = some e →
    e.symbols.map Symbol.loaded = CodeEvent.loadedInto h events
  distinct : ∀ h e, c.executables.held? h = some e → (e.symbols.map Symbol.key).Nodup
  fresh : ∀ h, c.executables.held? h = none → CodeEvent.loadedInto h events = []

namespace Listed

variable {executables : Directory Executable} {kernels : KernelTable} {next : UInt64}

/-- An executable is put in its place. -/
theorem put (inv : c.Listed events) (puts : c.Puts h e executables)
    (listed : e.symbols.map Symbol.loaded = CodeEvent.loadedInto h (events ++ more))
    (distinct : (e.symbols.map Symbol.key).Nodup)
    (others : ∀ k, k ≠ h → CodeEvent.loadedInto k more = []) :
    Listed (events ++ more) ⟨executables, kernels, next⟩ := by
  have kept : ∀ k, k ≠ h →
      CodeEvent.loadedInto k (events ++ more) = CodeEvent.loadedInto k events := by
    intro k other
    rw [CodeEvent.loadedInto_append, others k other, List.append_nil]
  refine ⟨fun k f held => ?_, fun k f held => ?_, fun k none => ?_⟩
  · rw [puts.held] at held
    split at held
    case isTrue same =>
      cases held
      exact same ▸ listed
    case isFalse other => exact (inv.listed k f held).trans (kept k other).symm
  · rw [puts.held] at held
    split at held
    case isTrue => exact Option.some.inj held ▸ distinct
    case isFalse => exact inv.distinct k f held
  · rw [puts.held] at none
    split at none
    case isTrue => cases none
    case isFalse other => exact (kept k other).trans (inv.fresh k none)

/-- Executables are taken out, and can still be looked at. -/
theorem take (inv : c.Listed events) (held : ∀ k, executables.held? k = c.executables.held? k) :
    Listed events ⟨executables, kernels, next⟩ where
  listed k f found := inv.listed k f ((held k).symm.trans found)
  distinct k f found := inv.distinct k f ((held k).symm.trans found)
  fresh k none := inv.fresh k ((held k).symm.trans none)

/-- Whatever happens to code, executables list what was loaded. -/
theorem change (inv : c.Listed events) (wf : c.executables.WellFormed Executable.handle)
    (built : ∀ h agent code, .loaded h agent code ∈ more → code.Built) (change : c.Change more d) :
    d.Listed (events ++ more) := by
  cases change with
  | nothing => exact (List.append_nil events).symm ▸ inv
  | create room =>
    have vacant : c.executables.held? c.executables.nextHandle = none :=
      Option.eq_none_iff_forall_ne_some.mpr fun f held => wf.ne_nextHandle room held rfl
    refine inv.put (.create wf room) ?_ .nil fun _ _ => rfl
    rw [List.append_nil, inv.fresh _ vacant]
    rfl
  | @load h agent code e e' live loaded =>
    have held := Directory.held?_of_get? live
    have distinct := Executable.nodup_load loaded (built h agent code (.head _))
      (inv.distinct h e held)
    obtain ⟨thawed, rfl⟩ := Executable.load_eq_ok loaded
    refine inv.put (.modify live thawed) ?_ distinct fun k other => ?_
    · rw [CodeEvent.loadedInto_append, List.map_append, inv.listed h e held]
      simp [CodeEvent.loadedInto, Symbol.loaded, Function.comp_def]
    · simp [CodeEvent.loadedInto, Ne.symm other]
  | @freeze h e e' live froze =>
    have held := Directory.held?_of_get? live
    obtain ⟨thawed, rfl⟩ := Executable.freeze_eq_ok froze
    refine inv.put (.modify live thawed) ?_ ?_ fun _ _ => rfl
    · rw [Executable.map_number fun _ _ => rfl, inv.listed h e held, CodeEvent.loadedInto_append]
      exact (List.append_nil _).symm
    · rw [Executable.map_number fun _ _ => rfl]
      exact inv.distinct h e held
  | destroy removed =>
    rw [List.append_nil]
    exact inv.take (Directory.held?_remove_id wf removed)
  | drain =>
    rw [List.append_nil]
    exact inv.take (Directory.held?_drain_id wf)

end Listed

end Code

/-! ### Loading -/

namespace Session

open Accelerator.Action

variable {s t : Session} {h agent : Handle} {code : CodeObject} {events more : List CodeEvent}

/-- What is checked before a code object is loaded into an executable for an agent. -/
def loadChecks (s : Session) (h agent : Handle) (code : CodeObject) : List (Bool × Fault) :=
  (s.isOpen, .notInitialized) ::
  ((s.executables.get? h).isSome, .invalidExecutable h) ::
  (s.executables.get? h).elim [] fun e =>
    ((s.agents.get? agent).isSome, .invalidAgent agent) ::
    (s.agents.get? agent).elim [] fun a =>
      (!e.frozen, .frozenExecutable) ::
      (code.isa == a.info.isa, .incompatibleIsa code.isa a.info.name a.info.isa) ::
      code.kernels.map fun k => (!(e.symbol? k.name agent).isSome,
        .code (.alreadyLoaded k.name agent))

/-- All kernels of a code object are in an executable, behind those that were there before, and
nothing else has changed. -/
def AddsKernels (s : Session) (h agent : Handle) (code : CodeObject) (t : Session) : Prop :=
  ∃ e, s.executables.get? h = some e ∧ t = s.modifyExecutable h fun _ =>
    { e with symbols := e.symbols ++ code.kernels.map fun k => ⟨agent, k, 0⟩ }

/-- All kernels of a code object are loaded if all checks pass; otherwise the first check that fails
is told, and none of them is loaded. -/
theorem checked_loadCode (wf : s.WellFormed) (h agent : Handle) (code : CodeObject) :
    Checked (s.loadChecks h agent code) (loadCode h agent code) s fun _ t =>
      s.AddsKernels h agent code t := by
  rw [loadChecks, loadCode]
  refine .executable fun isOpen e live => .knownAgent isOpen fun a found => ?_
  refine .require rfl fun thawed => .require rfl fun suits => ?_
  have thawed : ¬ e.frozen = true := by simpa using thawed
  rw [Checked, firstFailing_each, wf.agents agent a found, bind_apply, Executable.load,
    if_neg thawed]
  cases code.kernels.find? fun k => (e.symbol? k.name agent).isSome with
  | some k => rfl
  | none => exact ⟨(), _, rfl, e, live, rfl⟩

/-! ### Asking for kernels -/

/-- What the application is told of the kernels of an executable: they are listed in order, no two
of them have both name and agent in common, and each is found by these. -/
structure Lists (s : Session) (h : Handle) (loaded : List (Handle × Kernel)) (all : List Symbol) :
    Prop where
  told : symbols h s = (.ok all, s)
  loaded : all.map Symbol.loaded = loaded
  distinct : (all.map Symbol.key).Nodup
  found : ∀ name agent x, (symbol h name agent s).1 = .ok x ↔
    x ∈ all ∧ x.agent = agent ∧ x.kernel.name = name

theorem lists_executable (listed : s.code.Listed events) (sourced : s.code.Sourced events)
    (suited : s.Suited events) (wf : s.WellFormed) {e : Executable}
    (known : executable h s = (.ok e, s)) :
    s.Lists h (CodeEvent.loadedInto h events) e.symbols := by
  obtain ⟨isOpen, live, -⟩ := executable_eq_ok known
  have held := Directory.held?_of_get? live
  have distinct := listed.distinct h e held
  refine ⟨by rw [symbols, bind_apply, known]; rfl, listed.listed h e held, distinct, ?_⟩
  intro name agent x
  rw [symbol, bind_apply, known, ← Executable.symbol?_eq_some distinct]
  dsimp only
  rw [bind_apply, Session.agent, ensureOpen_bind isOpen, bind_apply, session_apply]
  dsimp only
  cases host : s.agents.get? agent with
  | none =>
    -- kernels are loaded for agents that are there
    constructor
    · intro told
      cases told
    · intro found
      obtain ⟨inside, rfl, -⟩ := (Executable.symbol?_eq_some distinct).mp found
      obtain ⟨code, loaded, -⟩ := sourced.symbols h e held x inside
      obtain ⟨b, agent, -⟩ := suited h x.agent code loaded
      cases host.symm.trans agent
  | some a =>
    show (demand (e.symbol? name a.handle) (.unknownSymbol name) s).1 = .ok x ↔ _
    rw [wf.agents agent a host]
    cases e.symbol? name agent <;> simp [demand, Action.pure, refuse]

/-! ### Runs -/

theorem CodeRun.listed {start : Session} {before : List CodeEvent} (run : CodeRun events start s)
    (reachable : start.Reachable) (inv : start.code.Listed before)
    (built : ∀ h agent code, .loaded h agent code ∈ events → code.Built) :
    s.code.Listed (before ++ events) := by
  induction run with
  | refl s => exact (List.append_nil before).symm ▸ inv
  | rehost _ _ ih => exact ih reachable inv built
  | step earlier step ih =>
    have reached := earlier.reachable reachable
    have listed := ih reachable inv fun h agent code told =>
      built h agent code (List.mem_append_left _ told)
    rw [← List.append_assoc]
    exact listed.change reached.executables
      (fun h agent code told => built h agent code (List.mem_append_right _ told))
      (step.code reached.wellFormed)

/-- Kernels make a code object exactly if it can be loaded. -/
theorem exists_build_iff (isa : String) (kernels : List Kernel) :
    (∃ code, CodeObject.build isa kernels = .ok code) ↔ CodeObject.Loadable kernels := by
  constructor
  · rintro ⟨code, made⟩
    exact (CodeObject.build_eq_ok.mp made).1
  · exact fun loadable => ⟨_, CodeObject.build_eq_ok.mpr ⟨loadable, rfl⟩⟩

/-- Along every run: an executable lists, in order, the kernels that were loaded into it. -/
theorem CodeRun.lists {c : Config} {start : Session} (opened : openConfig c = .ok start)
    (run : CodeRun events start s)
    (built : ∀ h agent code, .loaded h agent code ∈ events → code.Built)
    (known : executable h s = (.ok e, s)) :
    s.Lists h (CodeEvent.loadedInto h events) e.symbols := by
  have reachable := Reachable.opened opened
  have none := held?_of_opened opened
  have first : start.code.Listed [] :=
    ⟨fun h e held => (by cases (none h).symm.trans held),
      fun h e held => (by cases (none h).symm.trans held), fun _ _ => rfl⟩
  obtain ⟨sourced, suited⟩ := run.sourced_of_opened opened
  exact lists_executable (run.listed reachable first built) sourced suited
    (run.reachable reachable).wellFormed known

/-- An executable that is frozen does not change any more. -/
theorem CodeRun.keeps_frozen (later : CodeRun more s t) (reached : s.Reachable)
    (held : s.heldExecutable? h = some e) (frozen : e.frozen = true) :
    t.heldExecutable? h = some e := by
  obtain ⟨e', held', lasts⟩ := (later.lasts reached held).1
  rw [held', lasts.frozen frozen]

/-- **Executables list what was loaded into them.** Kernels make a code object exactly if their
names are distinct and the alignments of their argument segments are powers of two that are not too
large. Take a run in which such code objects are loaded. A code object is loaded with all of its
kernels, or with none; then the first check that fails is told: that the session is open, that the
executable and the agent are there, that the executable is not frozen, that the instruction sets are
the same, and that no kernel is there already. The application is told of the kernels that were
loaded, in order and each with its agent, and finds each of them by its name and agent; no two have
both in common. Once an executable is frozen it does not change any more. -/
theorem CodeRun.lists_what_was_loaded {c : Config} {start : Session}
    (opened : openConfig c = .ok start) (run : CodeRun events start s)
    (built : ∀ h agent code, .loaded h agent code ∈ events → code.Built) :
    (∀ isa kernels, (∃ code, CodeObject.build isa kernels = .ok code) ↔
      CodeObject.Loadable kernels) ∧
    (∀ h agent code, Checked (s.loadChecks h agent code) (loadCode h agent code) s fun _ t =>
      s.AddsKernels h agent code t) ∧
    (∀ h e, executable h s = (.ok e, s) →
      s.Lists h (CodeEvent.loadedInto h events) e.symbols) ∧
    ∀ more t, CodeRun more s t → ∀ h e, s.heldExecutable? h = some e → e.frozen = true →
      t.heldExecutable? h = some e := by
  have reached := run.reachable (Reachable.opened opened)
  exact ⟨exists_build_iff, checked_loadCode reached.wellFormed,
    fun _ _ known => run.lists opened built known,
    fun _ _ later _ _ held frozen => later.keeps_frozen reached held frozen⟩

/-- A kernel is loaded for the graphics processor. It is not loaded for it again, and not for the
signal processor, which has another instruction set. -/
theorem symbols_traced : ∃ s, CodeRun [.loaded (.ofParts 0 1) (.ofParts 0 1) tracing]
      (.ofConfig twoSets) s ∧
    (∃ all, s.Lists (.ofParts 0 1) (tracing.kernels.map fun k => (.ofParts 0 1, k)) all) ∧
    loadCode (.ofParts 0 1) (.ofParts 0 1) tracing s =
      (.error (.code (.alreadyLoaded "trace" (.ofParts 0 1))), s) ∧
    loadCode (.ofParts 0 1) (.ofParts 1 1) tracing s =
      (.error (.incompatibleIsa "aql-sim" "dsp0" "aql-dsp"), s) := by
  have created := (CodeRun.refl (.ofConfig twoSets)).step
    (.lasting (o := .createExecutable) ⟨by decide, by decide, by decide⟩ ⟨nofun, nofun⟩)
  have run := created.step (.lasting (o := .loadCode (.ofParts 0 1) (.ofParts 0 1) tracing)
    ⟨by decide, by decide, by decide⟩ ⟨nofun, nofun⟩)
  have built : ∀ h agent code, .loaded h agent code ∈
      [CodeEvent.loaded (.ofParts 0 1) (.ofParts 0 1) tracing] → code.Built := by
    intro h agent code told
    cases List.mem_singleton.mp told
    rfl
  obtain ⟨-, checked, lists, -⟩ := CodeRun.lists_what_was_loaded (c := twoSets) rfl run built
  refine ⟨_, run, ⟨_, lists (.ofParts 0 1) _ rfl⟩, ?_, ?_⟩
  · exact checked (.ofParts 0 1) (.ofParts 0 1) tracing
  · exact checked (.ofParts 0 1) (.ofParts 1 1) tracing

end Session

end Accelerator
