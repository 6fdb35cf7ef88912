import Accelerator.Proofs.Code.Table
import Accelerator.Proofs.Ring.Submission

/-!
# Instruction sets

A code object is loaded only for agents of its instruction set. The kernel table does not keep the
agent: a processor that looks up the number in a packet finds the kernel, whichever agent it was
loaded for, and nothing else is asked. So what is known of a kernel that runs on a queue is that its
code object has the instruction set of the agent that it was *loaded for*. If that is the
instruction set of the agent that it runs on, all is well; if the application puts the number of a
kernel into a queue of another agent, the kernel runs there.

Where kernels come from does not depend on how many were numbered: the table may be out of order
when numbers have come round, but every entry is still of a frozen executable.

## Live or destroyed

The invariant is about all executables that can be looked at, destroyed ones included. Then
destroying an executable takes nothing away from what is known, and only entries of the table go.

Of the table, only one direction is claimed: every entry is one of some executable. The other
direction fails when numbers come round, since a number that is added again hides the kernel that
had it before. That is why no bound on the number of kernels is needed here.

## Main definitions

* `Code.Sourced`: every kernel of an executable was loaded into it, and every entry of the table is
  of an executable.
* `Session.Suited`: code objects have the instruction sets of the agents that they were loaded for.
* `Session.ComesFrom`: where the kernel of a number comes from.

## Main results

* `Session.CodeRun.runs_loaded`: where a kernel that runs comes from.
* `Session.runs_foreign`: a kernel of one instruction set runs on an agent of another.
-/

namespace Accelerator

namespace Code

variable {c d : Code} {events more : List CodeEvent} {h : Handle} {e : Executable}

/-- Every kernel of an executable is of a code object that was loaded into it for the kernel's
agent, and every entry of the kernel table is of an executable. -/
structure Sourced (events : List CodeEvent) (c : Code) : Prop where
  symbols : ∀ h e, c.executables.held? h = some e → ∀ symbol ∈ e.symbols,
    ∃ code, .loaded h symbol.agent code ∈ events ∧ symbol.kernel ∈ code.kernels
  entries : ∀ entry ∈ c.kernels, ∃ h e, c.executables.held? h = some e ∧ entry ∈ e.table

namespace Sourced

variable {executables : Directory Executable} {kernels : KernelTable} {next : UInt64}

/-- An executable is put in its place, and may add its entries to the table. -/
theorem put (inv : c.Sourced events) (puts : c.Puts h e executables)
    (symbols : ∀ symbol ∈ e.symbols,
      ∃ code, .loaded h symbol.agent code ∈ events ++ more ∧ symbol.kernel ∈ code.kernels)
    (entries : ∀ entry ∈ kernels, entry ∈ c.kernels ∨ entry ∈ e.table) :
    Sourced (events ++ more) ⟨executables, kernels, next⟩ := by
  have here : executables.held? h = some e := (puts.held h).trans (if_pos rfl)
  refine ⟨fun k f held symbol listed => ?_, fun entry listed => ?_⟩
  · rw [puts.held] at held
    split at held
    case isTrue same =>
      cases held
      exact same ▸ symbols symbol listed
    case isFalse =>
      obtain ⟨code, loaded, mem⟩ := inv.symbols k f held symbol listed
      exact ⟨code, List.mem_append_left more loaded, mem⟩
  · rcases entries entry listed with old | new
    · obtain ⟨k, f, held, named⟩ := inv.entries entry old
      by_cases same : k = h
      · -- it was not frozen, so it had no entries
        rw [Executable.table_of_thawed (puts.thawed f (same ▸ held))] at named
        cases named
      · exact ⟨k, f, (puts.held k).trans ((if_neg same).trans held), named⟩
    · exact ⟨h, e, here, new⟩

/-- Executables and entries are taken out. -/
theorem take (inv : c.Sourced events)
    (held : ∀ k, executables.held? k = c.executables.held? k)
    (fewer : ∀ entry ∈ kernels, entry ∈ c.kernels) :
    Sourced events ⟨executables, kernels, next⟩ := by
  refine ⟨fun k f found => inv.symbols k f ((held k).symm.trans found), fun entry listed => ?_⟩
  obtain ⟨k, f, found, named⟩ := inv.entries entry (fewer entry listed)
  exact ⟨k, f, (held k).trans found, named⟩

/-- Whatever happens to code, kernels come from code objects that were loaded. -/
theorem change (inv : c.Sourced events) (wf : c.executables.WellFormed Executable.handle)
    (change : c.Change more d) : d.Sourced (events ++ more) := by
  cases change with
  | nothing => exact (List.append_nil events).symm ▸ inv
  | create room =>
    exact inv.put (.create wf room) (fun symbol none => by cases none) fun entry => .inl
  | @load h agent code e e' live loaded =>
    obtain ⟨thawed, rfl⟩ := Executable.load_eq_ok loaded
    refine inv.put (.modify live thawed) (fun symbol listed => ?_) fun entry => .inl
    rcases List.mem_append.mp listed with old | new
    · obtain ⟨before, loaded, mem⟩ := inv.symbols h e (Directory.held?_of_get? live) symbol old
      exact ⟨before, List.mem_append_left _ loaded, mem⟩
    · obtain ⟨kernel, mem, rfl⟩ := List.mem_map.mp new
      exact ⟨code, List.mem_append_right _ List.mem_cons_self, mem⟩
  | @freeze h e e' live froze =>
    obtain ⟨thawed, rfl⟩ := Executable.freeze_eq_ok froze
    refine inv.put (.modify live thawed) (fun symbol listed => ?_) fun entry listed => ?_
    · obtain ⟨i, place⟩ := List.mem_iff_getElem?.mp listed
      rw [Executable.getElem?_number] at place
      obtain ⟨before, old, rfl⟩ := Option.map_eq_some_iff.mp place
      obtain ⟨code, loaded, mem⟩ := inv.symbols h e (Directory.held?_of_get? live) before
        (List.mem_of_getElem? old)
      exact ⟨code, List.mem_append_left _ loaded, mem⟩
    · rcases List.mem_append.mp listed with new | old
      · exact .inr (List.mem_reverse.mp new)
      · exact .inl old
  | destroy removed =>
    rw [List.append_nil]
    exact inv.take (Directory.held?_remove_id wf removed) fun entry => List.mem_of_mem_filter
  | drain =>
    rw [List.append_nil]
    exact inv.take (Directory.held?_drain_id wf) fun entry none => by cases none

end Sourced

end Code

namespace Session

variable {s t : Session} {events : List CodeEvent}

/-! ### Agents -/

/-- Every code object has the instruction set of the agent that it was loaded for. -/
def Suited (events : List CodeEvent) (s : Session) : Prop :=
  ∀ h agent code, .loaded h agent code ∈ events →
    ∃ b, s.agents.get? agent = some b ∧ code.isa = b.info.isa

theorem SameAgents.info (same : s.SameAgents t) {h : Handle} {a : Agent}
    (found : s.agents.get? h = some a) : ∃ b, t.agents.get? h = some b ∧ b.info = a.info := by
  have after := same h
  rw [found, Option.map_some] at after
  obtain ⟨b, found', equal⟩ := Option.map_eq_some_iff.mp after
  exact ⟨b, found', congrArg Prod.snd equal⟩

/-- A turn that tells of a code object has loaded it. -/
theorem loadCode_of_codeEvents {turn : Turn} {h agent : Handle} {code : CodeObject}
    (told : .loaded h agent code ∈ turn.codeEvents s) :
    ∃ u after, loadCode h agent code s = (.ok u, after) := by
  unfold Turn.codeEvents at told
  split at told
  case h_1 h' agent' code' =>
    split at told
    case h_1 u answer =>
      cases List.mem_singleton.mp told
      exact ⟨u, _, Prod.ext answer rfl⟩
    case h_2 => cases told
  case h_2 =>
    split at told
    · cases List.mem_singleton.mp told
    · cases told
  case h_3 => cases told

theorem Suited.step {turn : Turn} (suited : s.Suited events) (wf : s.WellFormed)
    (step : Step turn s t) : t.Suited (events ++ turn.codeEvents s) := by
  have same := (step.changes wf.queues).agents
  intro h agent code listed
  obtain ⟨b, found, isa⟩ : ∃ b, s.agents.get? agent = some b ∧ code.isa = b.info.isa := by
    rcases List.mem_append.mp listed with old | new
    · exact suited h agent code old
    · obtain ⟨u, after, answer⟩ := loadCode_of_codeEvents new
      obtain ⟨-, -, b, -, found, isa, -⟩ := loadCode_eq_ok wf answer
      exact ⟨b, found, isa⟩
  obtain ⟨b', found', info⟩ := same.info found
  exact ⟨b', found', isa.trans (congrArg AgentInfo.isa info.symm)⟩

/-! ### Runs -/

theorem CodeRun.sourced {start : Session} {before : List CodeEvent} (run : CodeRun events start s)
    (reachable : start.Reachable) (inv : start.code.Sourced before) (suited : start.Suited before) :
    s.code.Sourced (before ++ events) ∧ s.Suited (before ++ events) := by
  induction run with
  | refl s => exact (List.append_nil before).symm ▸ ⟨inv, suited⟩
  | rehost _ _ ih => exact ih reachable inv suited
  | step earlier step ih =>
    have reached := earlier.reachable reachable
    obtain ⟨sourced, suited⟩ := ih reachable inv suited
    rw [← List.append_assoc]
    exact ⟨sourced.change reached.executables (step.code reached.wellFormed),
      suited.step reached.wellFormed step⟩

/-- In the beginning there are no executables. -/
theorem held?_of_opened {c : Config} (opened : openConfig c = .ok s) (h : Handle) :
    s.code.executables.held? h = none := by
  rw [openConfig_eq_ok opened]
  exact Directory.held?_empty h

/-- Along every run kernels come from what was loaded on the way. -/
theorem CodeRun.sourced_of_opened {c : Config} {start : Session}
    (opened : openConfig c = .ok start) (run : CodeRun events start s) :
    s.code.Sourced events ∧ s.Suited events := by
  have first : start.code.Sourced [] := by
    refine ⟨fun h e held => ?_, fun entry listed => ?_⟩
    · cases (held?_of_opened opened h).symm.trans held
    · rw [openConfig_eq_ok opened] at listed
      cases listed
  exact run.sourced (Reachable.opened opened) first fun _ _ _ listed => by cases listed

/-- Where the kernel of a number comes from: it is the number of the kernel in a frozen executable,
into which a code object with the kernel was loaded for an agent of its instruction set. -/
structure ComesFrom (s : Session) (events : List CodeEvent) (object : UInt64) (kernel : Kernel)
    (b : Agent) (code : CodeObject) : Prop where
  named : ∃ h e, s.heldExecutable? h = some e ∧ e.frozen = true ∧
    .loaded h b.handle code ∈ events ∧ ∃ symbol ∈ e.symbols,
      symbol.agent = b.handle ∧ symbol.kernelObject = object ∧ symbol.kernel = kernel
  listed : kernel ∈ code.kernels
  agent : s.agents.get? b.handle = some b
  suits : code.isa = b.info.isa

theorem comesFrom_of_find? (sourced : s.code.Sourced events) (suited : s.Suited events)
    (wf : s.WellFormed) {object : UInt64} {kernel : Kernel}
    (found : s.kernels.find? object = some kernel) :
    ∃ b code, s.ComesFrom events object kernel b code := by
  obtain ⟨h, e, held, entry⟩ := sourced.entries _ (mem_of_lookup found)
  obtain ⟨frozen, symbol, listed, number, rfl⟩ := Executable.mem_table.mp entry
  obtain ⟨code, loaded, mem⟩ := sourced.symbols h e held symbol listed
  obtain ⟨b, agent, isa⟩ := suited h symbol.agent code loaded
  have named := wf.agents _ b agent
  exact ⟨b, code, ⟨h, e, held, frozen, named ▸ loaded, symbol, listed, named.symm, number, rfl⟩,
    mem, named.symm ▸ agent, isa⟩

/-- A processor that runs a kernel for an agent finds it by the number in the packet. The kernel
comes from a code object with the instruction set of the agent that it was loaded for, and so has
the instruction set of the agent that it runs on if these are the same. The instruction set of the
agent that it runs on is not looked at. -/
theorem CodeRun.runs_loaded {c : Config} {start : Session}
    (opened : openConfig c = .ok start) (run : CodeRun events start s) {q : Queue}
    {p : Processor} {deeds : List Deed} {index : UInt64} {l : Launch} (move : s.Move q p deeds t)
    (ran : .ran index l ∈ deeds) :
    ∃ a b code, q.agent.bind s.agents.get? = some a ∧
      s.ComesFrom events (q.ring.read index).dispatch.kernelObject l.kernel b code ∧
      (b.info.isa = a.info.isa → code.isa = a.info.isa) ∧
      ∀ isa, (q.ring.read index).dispatch.plan (companionOfWord (q.ring.word index))
        { a.info with isa } s.kernels s.memory = .launch l := by
  have reachable := Reachable.opened opened
  obtain ⟨sourced, suited⟩ := run.sourced_of_opened opened
  obtain ⟨a, host, planned⟩ := (move.launches ran).planned
  obtain ⟨b, code, comes⟩ := comesFrom_of_find? sourced suited (run.reachable reachable).wellFormed
    (KernelDispatch.find?_of_plan planned)
  exact ⟨a, b, code, host, comes, comes.suits.trans, fun isa => planned⟩

/-! ### Two instruction sets -/

/-- A graphics processor, and a signal processor with an instruction set of its own. -/
def twoSets : Config where
  agents := [Config.gpu, { Config.dsp with isa := "aql-dsp" }]
  regions := []
  softQueueCapacity := 64
  workerThreads := 0
  processorPollUs := 200

/-- A kernel for the graphics processor that reports where it runs. -/
def tracing : CodeObject :=
  ⟨"aql-sim", [.ofEntry "trace" fun item => .report (.position item) (.done ())]⟩

/-- The kernel is loaded for the graphics processor, and its number is put into the first packet of
a queue of an agent. -/
def traced (agent : Handle) : Session :=
  [Operation.createExecutable, .loadCode (.ofParts 0 1) (.ofParts 0 1) tracing,
    .freezeExecutable (.ofParts 0 1), .createQueue agent 64 .single ⟨0, 0, true⟩,
    .submit (.ofParts 0 1) ⟨.ofBody (.kernel { oneItem with kernelObject := firstKernelObject }),
      .ofType .kernelDispatch, 1⟩].foldl (fun s o => o.perform s) (.ofConfig twoSets)

/-- What is done with code for it. -/
def tracedEvents : List CodeEvent :=
  [.loaded (.ofParts 0 1) (.ofParts 0 1) tracing, .froze (.ofParts 0 1) 1]

section Traced

variable {agent : Handle} (either : agent = .ofParts 0 1 ∨ agent = .ofParts 1 1)
include either

theorem codeRun_traced : CodeRun tracedEvents (.ofConfig twoSets) (traced agent) := by
  have created := (CodeRun.refl (.ofConfig twoSets)).step
    (.lasting (o := .createExecutable) ⟨by decide, by decide, by decide⟩ ⟨nofun, nofun⟩)
  have loaded := created.step (.lasting (o := .loadCode (.ofParts 0 1) (.ofParts 0 1) tracing)
    ⟨by decide, by decide, by decide⟩ ⟨nofun, nofun⟩)
  have frozen := loaded.step (.lasting (o := .freezeExecutable (.ofParts 0 1))
    ⟨by decide, by decide, by decide⟩ ⟨nofun, nofun⟩)
  have queued := frozen.step (.lasting (o := .createQueue agent 64 .single ⟨0, 0, true⟩)
    ⟨by decide, by decide, by decide⟩ ⟨nofun, nofun⟩)
  refine queued.step (.lasting (o := .submit (.ofParts 0 1)
    ⟨.ofBody (.kernel { oneItem with kernelObject := firstKernelObject }),
      .ofType .kernelDispatch, 1⟩) ?_ ⟨nofun, nofun⟩)
  rcases either with rfl | rfl <;> exact ⟨by decide, by decide, by decide⟩

/-- The packet is run, whichever agent the queue is of. -/
theorem move_traced : ∃ q l t, (traced agent).queues.get? (.ofParts 0 1) = some q ∧
    q.agent = some agent ∧ (q.ring.read 0).dispatch.kernelObject = firstKernelObject ∧
    (traced agent).stepProcessor? q = some t ∧ (traced agent).Move q .start [.ran 0 l] t ∧
    t.reports.length = 1 := by
  rcases either with rfl | rfl
  all_goals
    exact ⟨_, _, _, rfl, rfl, rfl, rfl, .run rfl (by decide) (show _ = Except.ok none from rfl)
      ⟨rfl, ⟨none, rfl⟩, _, rfl, rfl⟩ rfl, rfl⟩

end Traced

/-- A code object of the run is the one that was loaded for the graphics processor. -/
theorem loaded_traced {h b : Handle} {code : CodeObject}
    (loaded : .loaded h b code ∈ tracedEvents) :
    b = .ofParts 0 1 ∧ code = tracing := by
  simp only [tracedEvents, List.mem_cons, CodeEvent.loaded.injEq, reduceCtorEq, List.not_mem_nil,
    or_false] at loaded
  exact loaded.2

/-- A kernel that runs on the agent that it was loaded for. -/
theorem runs_own : ∃ s q l t a b, CodeRun tracedEvents (.ofConfig twoSets) s ∧
    s.Move q .start [.ran 0 l] t ∧ q.agent.bind s.agents.get? = some a ∧
    s.ComesFrom tracedEvents firstKernelObject l.kernel b tracing ∧ tracing.isa = a.info.isa := by
  have either : Handle.ofParts 0 1 = .ofParts 0 1 ∨ Handle.ofParts 0 1 = .ofParts 1 1 := .inl rfl
  have run := codeRun_traced either
  obtain ⟨q, l, t, live, agent, number, -, move, -⟩ := move_traced either
  obtain ⟨a, b, code, host, comes, suits, -⟩ :=
    CodeRun.runs_loaded (c := twoSets) rfl run move List.mem_cons_self
  obtain ⟨h, e, -, -, loaded, -⟩ := comes.named
  obtain ⟨same, rfl⟩ := loaded_traced loaded
  have own : b = a := by
    have found := comes.agent
    rw [agent, Option.bind_some] at host
    rw [same] at found
    exact Option.some.inj (found.symm.trans host)
  rw [number] at comes
  exact ⟨_, q, l, t, a, b, run, move, host, comes, suits (by rw [own])⟩

/-- A kernel of one instruction set runs on an agent of another, and is not refused. -/
theorem runs_foreign : ∃ s q l t a, openConfig twoSets = .ok (.ofConfig twoSets) ∧
    CodeRun tracedEvents (.ofConfig twoSets) s ∧ s.queues.get? (.ofParts 0 1) = some q ∧
    q.agent.bind s.agents.get? = some a ∧ s.stepProcessor? q = some t ∧
    s.Move q .start [.ran 0 l] t ∧ t.reports.length = 1 ∧
    ∀ h b code, .loaded h b code ∈ tracedEvents → code.isa ≠ a.info.isa := by
  have either : Handle.ofParts 1 1 = .ofParts 0 1 ∨ Handle.ofParts 1 1 = .ofParts 1 1 := .inr rfl
  obtain ⟨q, l, t, live, agent, -, stepped, move, reported⟩ := move_traced either
  refine ⟨_, q, l, t, ⟨.ofParts 1 1, { Config.dsp with isa := "aql-dsp" }, 1⟩, rfl,
    codeRun_traced either, live, ?_, stepped, move, reported, fun h b code loaded => ?_⟩
  · rw [agent]
    rfl
  · rw [(loaded_traced loaded).2]
    decide

end Session

end Accelerator
