import Accelerator.Proofs.Runs.Creation
import Mathlib.Data.List.Forall2

/-!
# Valid configurations and what they open

A configuration is valid if names are distinct, sizes and alignments are powers of two, granules and
the poll interval are not zero, and owners are agents of the same configuration. All of it is looked
at in one fixed order: agents in turn, then regions in turn, then the poll interval; the first fault
in that order is told.

A valid configuration opens. The session then lists the agents of the configuration and its regions
in order. A region keeps its owners in the order in which they were declared, as handles: every name
is that of an agent, so none is left out. An agent is attached to the regions that name it, however
often one of them does.

## The order of the checks

Validation is written as two loops that remember the names they have seen. `namedChecks` turns such
a loop into a list of checks in which nothing is remembered, and lists can be put one behind the
other. So the order in which faults are found is the order of a list, and validity is that all
checks of the list pass.

## Main definitions

* `namedChecks`, `Config.checks`: what is looked at, in order.
* `Config.IsValid`: what a configuration must be like.
* `Session.Shows`: a session that shows a configuration.

## Main results

* `Config.validate_eq`, `Config.firstFailing_checks`: validation tells the first fault, and there is
  none exactly if the configuration is valid.
* `Session.shows_ofConfig`, `Session.attached_ofConfig`: what is opened shows the configuration, and
  attaches agents to the regions that name them.
* `Session.openConfig_of_failing`, `Session.openConfig_of_isValid`: what opening comes to.
* `Session.opens_iff_valid`: all of it, for every configuration.
-/

namespace Accelerator

/-! ### Checks of things with names -/

section Checks

variable {α ε : Type} {name : α → String} {taken : α → ε} {own : α → List (Bool × ε)}

/-- What checks come to: the fault of the first one that fails, if one does. -/
def verdict (checks : List (Bool × ε)) : Except ε Unit :=
  match firstFailing checks with
  | some e => .error e
  | none => .ok ()

theorem verdict_append (first second : List (Bool × ε)) :
    verdict (first ++ second) = verdict first >>= fun _ => verdict second := by
  rw [verdict, firstFailing_append, verdict]
  cases firstFailing first <;> rfl

theorem verdict_eq_ok {checks : List (Bool × ε)} :
    verdict checks = .ok () ↔ firstFailing checks = none := by
  rw [verdict]
  cases firstFailing checks <;> simp

/-- What is looked at of things with names, in turn: that none before it has the same name, and then
what else there is to a thing. -/
def namedChecks (name : α → String) (taken : α → ε) (own : α → List (Bool × ε)) :
    List String → List α → List (Bool × ε)
  | _, [] => []
  | seen, x :: rest => (decide (name x ∉ seen), taken x) :: own x ++
      namedChecks name taken own (name x :: seen) rest

theorem firstFailing_namedChecks {seen : List String} {xs : List α} :
    firstFailing (namedChecks name taken own seen xs) = none ↔
      (xs.map name).Nodup ∧ (∀ x ∈ xs, name x ∉ seen) ∧ ∀ x ∈ xs, firstFailing (own x) = none := by
  induction xs generalizing seen with
  | nil => simp [namedChecks]
  | cons x rest ih =>
    rw [namedChecks, List.cons_append, List.map_cons, List.nodup_cons, List.forall_mem_cons,
      List.forall_mem_cons]
    by_cases fresh : name x ∉ seen
    · rw [decide_eq_true fresh, firstFailing_true, firstFailing_append, Option.or_eq_none_iff, ih,
        forall_notMem_cons]
      tauto
    · rw [decide_eq_false fresh, firstFailing_false]
      exact ⟨nofun, fun passed => absurd passed.2.1.1 fresh⟩

end Checks

/-! ### Validity -/

/-- What is looked at of an agent besides its name. -/
def AgentInfo.checks (a : AgentInfo) : List (Bool × TopologyFault) :=
  [(decide (a.queueMinSize.toNat.isPowerOfTwo ∧ a.queueMaxSize.toNat.isPowerOfTwo ∧
    a.queueMinSize ≤ a.queueMaxSize), .queueSizes a.name a.queueMinSize a.queueMaxSize)]

/-- What is looked at of a region besides its name, given the names of the agents. -/
def RegionConfig.checks (agents : List String) (r : RegionConfig) : List (Bool × TopologyFault) :=
  (decide r.info.alignment.toNat.isPowerOfTwo, .alignment r.info.name r.info.alignment) ::
  (decide (r.info.granule ≠ 0), .zeroGranule r.info.name) ::
  r.owners.map fun owner => (decide (owner ∈ agents), .unknownOwner r.info.name owner)

/-- The sizes of the queues of an agent are powers of two, in order. -/
structure AgentInfo.IsValid (a : AgentInfo) : Prop where
  least : a.queueMinSize.toNat.isPowerOfTwo
  most : a.queueMaxSize.toNat.isPowerOfTwo
  ordered : a.queueMinSize ≤ a.queueMaxSize

namespace Config

/-- What is looked at of a configuration. -/
def checks (c : Config) : List (Bool × TopologyFault) :=
  namedChecks AgentInfo.name (fun a => .duplicateAgent a.name) AgentInfo.checks [] c.agents ++
  namedChecks (fun r => r.info.name) (fun r => .duplicateRegion r.info.name)
    (RegionConfig.checks (c.agents.map (·.name))) [] c.regions ++
  [(decide (c.processorPollUs ≠ 0), .zeroPoll)]

/-- What a configuration must be like. -/
structure IsValid (c : Config) : Prop where
  agentNames : (c.agents.map (·.name)).Nodup
  agents : ∀ a ∈ c.agents, a.IsValid
  regionNames : (c.regions.map (·.info.name)).Nodup
  regions : ∀ r ∈ c.regions, r.info.IsValid
  owners : ∀ r ∈ c.regions, ∀ owner ∈ r.owners, owner ∈ c.agents.map (·.name)
  poll : c.processorPollUs ≠ 0

theorem validateAgents_eq (seen : List String) (agents : List AgentInfo) :
    validateAgents seen agents = verdict (namedChecks AgentInfo.name
      (fun a => .duplicateAgent a.name) AgentInfo.checks seen agents) := by
  induction agents generalizing seen with
  | nil => rfl
  | cons a rest ih =>
    have first : validateAgent seen a =
        verdict ((decide (a.name ∉ seen), .duplicateAgent a.name) :: a.checks) := by
      rw [validateAgent]
      by_cases fresh : a.name ∈ seen
      · rw [if_pos fresh, decide_eq_false (not_not.mpr fresh)]
        rfl
      · rw [if_neg fresh, decide_eq_true fresh, verdict, firstFailing_true, AgentInfo.checks]
        split
        case isTrue sizes => rw [decide_eq_true sizes, firstFailing_true, firstFailing_nil]
        case isFalse sizes => rw [decide_eq_false sizes, firstFailing_false]
    rw [validateAgents, first, ih, namedChecks, verdict_append]

theorem validateRegion_eq (agents seen : List String) (r : RegionConfig) :
    validateRegion agents seen r = verdict
      ((decide (r.info.name ∉ seen), .duplicateRegion r.info.name) :: r.checks agents) := by
  have owners : firstFailing (r.owners.map fun owner =>
      (decide (owner ∈ agents), TopologyFault.unknownOwner r.info.name owner)) =
        (r.owners.find? fun owner => owner ∉ agents).map (.unknownOwner r.info.name) := by
    simpa using firstFailing_each (fun owner => decide (owner ∉ agents)) _ r.owners
  rw [validateRegion, verdict]
  by_cases fresh : r.info.name ∈ seen
  · rw [if_pos fresh, decide_eq_false (not_not.mpr fresh), firstFailing_false]
  rw [if_neg fresh, decide_eq_true fresh, firstFailing_true, RegionConfig.checks]
  by_cases aligned : r.info.alignment.toNat.isPowerOfTwo
  case neg => rw [if_pos aligned, decide_eq_false aligned, firstFailing_false]
  rw [if_neg (not_not.mpr aligned), decide_eq_true aligned, firstFailing_true]
  by_cases zero : r.info.granule = 0
  · rw [if_pos zero, decide_eq_false (not_not.mpr zero), firstFailing_false]
  rw [if_neg zero, decide_eq_true zero, firstFailing_true, owners]
  cases r.owners.find? fun owner => owner ∉ agents <;> rfl

theorem validateRegions_eq (agents seen : List String) (regions : List RegionConfig) :
    validateRegions agents seen regions = verdict
      (namedChecks (fun r => r.info.name) (fun r => .duplicateRegion r.info.name)
        (RegionConfig.checks agents) seen regions) := by
  induction regions generalizing seen with
  | nil => rfl
  | cons r rest ih => rw [validateRegions, validateRegion_eq, ih, namedChecks, verdict_append]

/-- Validation tells the first fault in order. -/
theorem validate_eq (c : Config) : c.validate = verdict c.checks := by
  have last : (if c.processorPollUs = 0 then .error .zeroPoll else .ok ()) =
      verdict [(decide (c.processorPollUs ≠ 0), TopologyFault.zeroPoll)] := by
    by_cases zero : c.processorPollUs = 0
    · rw [if_pos zero, decide_eq_false (not_not.mpr zero)]
      rfl
    · rw [if_neg zero, decide_eq_true zero]
      rfl
  rw [validate, checks, verdict_append, verdict_append, validateAgents_eq, validateRegions_eq, last]
  cases verdict (namedChecks AgentInfo.name _ _ [] c.agents) <;> rfl

/-- There is no fault exactly if the configuration is valid. -/
theorem firstFailing_checks (c : Config) : firstFailing c.checks = none ↔ c.IsValid := by
  have agents : ∀ a : AgentInfo, firstFailing a.checks = none ↔ a.IsValid := by
    intro a
    rw [AgentInfo.checks, firstFailing_eq_none, List.forall_mem_singleton, decide_eq_true_eq]
    exact ⟨fun sizes => ⟨sizes.1, sizes.2.1, sizes.2.2⟩, fun valid => ⟨valid.1, valid.2, valid.3⟩⟩
  have regions : ∀ r : RegionConfig, firstFailing (r.checks (c.agents.map (·.name))) = none ↔
      r.info.IsValid ∧ ∀ owner ∈ r.owners, owner ∈ c.agents.map (·.name) := by
    intro r
    rw [RegionConfig.checks, firstFailing_eq_none, List.forall_mem_cons, List.forall_mem_cons,
      List.forall_mem_map, ← and_assoc]
    simp only [decide_eq_true_eq]
    exact and_congr_left' ⟨fun valid => ⟨valid.1, valid.2⟩, fun valid => ⟨valid.1, valid.2⟩⟩
  rw [checks, firstFailing_append, firstFailing_append, Option.or_eq_none_iff,
    Option.or_eq_none_iff, firstFailing_namedChecks, firstFailing_namedChecks, firstFailing_eq_none,
    List.forall_mem_singleton, decide_eq_true_eq]
  simp only [agents, regions, List.not_mem_nil, not_false_eq_true, implies_true, true_and,
    forall_and]
  constructor
  · rintro ⟨⟨⟨agentNames, agents⟩, regionNames, regions, owners⟩, poll⟩
    exact ⟨agentNames, agents, regionNames, regions, owners, poll⟩
  · intro valid
    exact ⟨⟨⟨valid.agentNames, valid.agents⟩, valid.regionNames, valid.regions, valid.owners⟩,
      valid.poll⟩

end Config

/-! ### Arenas that are filled once -/

namespace Arena

variable {α β : Type} {make : Handle → β → α}

/-- Objects that are made from their handles, in turn. -/
def fill (make : Handle → β → α) (xs : List β) : Arena α :=
  xs.foldl (fun a x => a.insert (make a.nextHandle x)) .empty

theorem fill_concat (xs : List β) (x : β) :
    fill make (xs ++ [x]) = (fill make xs).insert (make (fill make xs).nextHandle x) := by
  rw [fill, List.foldl_append]
  rfl

theorem free_fill (xs : List β) : (fill make xs).free = [] := by
  induction xs using List.reverseRecOn with
  | nil => rfl
  | append_singleton xs x ih => rw [fill_concat, insert, ih]

theorem slots_fill_concat (xs : List β) (x : β) : (fill make (xs ++ [x])).slots =
    (fill make xs).slots.push ⟨1, some (make (fill make xs).nextHandle x)⟩ := by
  rw [fill_concat, insert, free_fill]

theorem size_slots_fill (xs : List β) : (fill make xs).slots.size = xs.length := by
  induction xs using List.reverseRecOn with
  | nil => rfl
  | append_singleton xs x ih =>
    rw [slots_fill_concat, Array.size_push, ih, List.length_append, List.length_singleton]

theorem wellFormed_fill {xs : List β} (few : xs.length ≤ 2 ^ 32) :
    (fill make xs).WellFormed := by
  induction xs using List.reverseRecOn with
  | nil => exact wellFormed_empty
  | append_singleton xs x ih =>
    rw [List.length_append, List.length_singleton] at few
    rw [fill_concat]
    exact (ih (by omega)).insert (by rw [size_slots_fill]; omega) _

/-- The objects are listed in the order in which they were made. -/
theorem forall₂_values_fill {R : β → α → Prop} {xs : List β}
    (made : ∀ x ∈ xs, ∀ h, R x (make h x)) : List.Forall₂ R xs (fill make xs).values := by
  induction xs using List.reverseRecOn with
  | nil => exact .nil
  | append_singleton xs x ih =>
    have last : (fill make (xs ++ [x])).values =
        (fill make xs).values ++ [make (fill make xs).nextHandle x] := by
      rw [values, slots_fill_concat, Array.toList_push, List.filterMap_append]
      rfl
    rw [last]
    exact List.rel_append (ih fun y listed => made y (List.mem_append_left _ listed))
      (.cons (made x (by simp) _) .nil)

end Arena

/-! ### What is opened -/

namespace Session

open Accelerator.Action

variable {c : Config} {s : Session} {h : Handle} {name : String} {a : Agent}

/-- A handle of an agent that has a name. -/
def Names (s : Session) (name : String) (h : Handle) : Prop :=
  ∃ a ∈ s.agents.values, a.info.name = name ∧ a.handle = h

/-- A region is what the configuration says, and its owners are those that it names, in order. -/
structure ShowsRegion (s : Session) (conf : RegionConfig) (r : Region) : Prop where
  info : r.info = conf.info
  owners : List.Forall₂ s.Names conf.owners r.owners

/-- A session shows a configuration: it lists the agents and the regions of the configuration in
order. -/
structure Shows (s : Session) (c : Config) : Prop where
  isOpen : s.isOpen = true
  agents : s.agents.values.map Agent.info = c.agents
  regions : List.Forall₂ s.ShowsRegion c.regions s.regions.values

/-- An agent is found by its handle, and is attached to the regions that name it, in order. -/
structure Attached (s : Session) (c : Config) (a : Agent) : Prop where
  found : s.agents.get? a.handle = some a
  regions : ∃ regions, regionsOf a.handle s = (.ok regions, s) ∧
    regions.Sublist s.regions.values ∧
    List.Forall₂ s.ShowsRegion (c.regions.filter fun r => a.info.name ∈ r.owners) regions

theorem agents_openAgents (c : Config) : (openAgents c).values.map Agent.info = c.agents := by
  have same : List.Forall₂ (fun info a => info = Agent.info a) c.agents (openAgents c).values :=
    Arena.forall₂_values_fill fun info _ h => rfl
  exact (List.forall₂_eq_eq_eq ▸ List.forall₂_map_right_iff.mpr same).symm

/-- What is found for every element of a list is found in turn. -/
theorem forall₂_filterMap {α β : Type} {R : α → β → Prop} {f : α → Option β} {xs : List α}
    (found : ∀ x ∈ xs, ∃ y, f x = some y ∧ R x y) : List.Forall₂ R xs (xs.filterMap f) := by
  induction xs with
  | nil => exact .nil
  | cons x rest ih =>
    obtain ⟨first, later⟩ := List.forall_mem_cons.mp found
    obtain ⟨y, told, related⟩ := first
    rw [List.filterMap_cons_some told]
    exact .cons related (ih later)

/-- Every agent of the configuration is found by its name. -/
theorem exists_agentNamed? (known : name ∈ c.agents.map (·.name)) :
    ∃ h, agentNamed? (openAgents c) name = some h ∧ (ofConfig c).Names name h := by
  rw [← agents_openAgents c, List.map_map, List.mem_map] at known
  obtain ⟨a, listed, named⟩ := known
  cases first : (openAgents c).values.find? fun b => b.info.name == name with
  | none =>
    have missed := List.find?_eq_none.mp first a listed
    exact absurd (beq_iff_eq.mpr named) missed
  | some b =>
    refine ⟨b.handle, by rw [agentNamed?, first]; rfl, b, List.mem_of_find?_eq_some first, ?_, rfl⟩
    simpa using List.find?_some first

theorem shows_ofConfig (valid : c.IsValid) : (ofConfig c).Shows c where
  isOpen := rfl
  agents := agents_openAgents c
  regions := by
    let make := fun (h : Handle) (r : RegionConfig) =>
      Region.ofInfo h r.info (r.owners.filterMap (agentNamed? (openAgents c)))
    refine @Arena.forall₂_values_fill _ _ make _ _ fun conf listed h => ⟨rfl, ?_⟩
    exact forall₂_filterMap fun owner declared =>
      exists_agentNamed? (valid.owners conf listed owner declared)

/-! ### The regions of an agent -/

section Attached

variable (few : c.agents.length ≤ 2 ^ 32)
include few

theorem get?_of_mem_values (listed : a ∈ (openAgents c).values) :
    (openAgents c).get? a.handle = some a := by
  have wf : (openAgents c).WellFormed := Arena.wellFormed_fill few
  obtain ⟨h, found⟩ := wf.mem_values.mp listed
  rwa [handle_openAgents c h a found]

/-- No two agents have one name, and no two have one handle. -/
theorem biUnique_names (names : (c.agents.map (·.name)).Nodup) :
    Relator.BiUnique (ofConfig c).Names := by
  rw [← agents_openAgents c, List.map_map] at names
  constructor
  · rintro _ _ h ⟨a, listed, rfl, rfl⟩ ⟨b, listed', rfl, same⟩
    have one := get?_of_mem_values few listed
    have other := get?_of_mem_values few listed'
    rw [same, one] at other
    rw [Option.some.inj other]
  · rintro name _ _ ⟨a, listed, named, rfl⟩ ⟨b, listed', named', rfl⟩
    have same : a.info.name = b.info.name := named.trans named'.symm
    exact congrArg Agent.handle (List.inj_on_of_nodup_map names listed listed' same)

theorem attached_ofConfig (valid : c.IsValid) (listed : a ∈ (ofConfig c).agents.values) :
    (ofConfig c).Attached c a := by
  have found := get?_of_mem_values few listed
  have asked : Session.agent a.handle (ofConfig c) = (.ok a, ofConfig c) := by
    rw [Session.agent, ensureOpen_bind rfl, bind_apply, session_apply]
    show demand ((openAgents c).get? a.handle) _ _ = _
    rw [found]
    rfl
  refine ⟨found, _, by rw [regionsOf, bind_apply, asked]; rfl, List.filter_sublist, ?_⟩
  refine List.rel_filter (fun conf r shows' => ?_) (shows_ofConfig valid).regions
  have named : (ofConfig c).Names a.info.name a.handle := ⟨a, listed, rfl, rfl⟩
  simpa using List.rel_mem (biUnique_names few valid.agentNames) named shows'.owners

end Attached

/-! ### Opening -/

theorem validate_succeeds_iff (c : Config) : c.validate = .ok () ↔ c.IsValid := by
  rw [c.validate_eq, verdict_eq_ok, c.firstFailing_checks]

theorem openConfig_of_failing {c : Config} {cause : TopologyFault}
    (fails : firstFailing c.checks = some cause) :
    openConfig c = .error (.argument (.topology cause)) := by
  rw [openConfig, c.validate_eq, verdict, fails]

theorem openConfig_of_isValid {c : Config} (valid : c.IsValid) :
    openConfig c = .ok (ofConfig c) := by
  rw [openConfig, (validate_succeeds_iff c).mpr valid]

/-- **Validation is exact, and what is opened is the configuration.** Validation tells the first of
the faults in order, and opening tells the same; there is no fault exactly if the configuration is
valid. A valid configuration is opened. Its agents and its regions are then listed in order, and
each region has all the owners that it names, in order. An agent is attached to the regions that
name it, each once and in order, also where a region names it twice. A handle has 32 bits for the
number of an agent, so this holds as long as there are not more agents than such numbers. -/
theorem opens_iff_valid (c : Config) :
    c.validate = verdict c.checks ∧
    (c.validate = .ok () ↔ c.IsValid) ∧
    (∀ cause, firstFailing c.checks = some cause →
      openConfig c = .error (.argument (.topology cause))) ∧
    (c.IsValid → ∃ s, openConfig c = .ok s ∧ s.Shows c ∧
      (c.agents.length ≤ 2 ^ 32 → ∀ a ∈ s.agents.values, s.Attached c a)) :=
  ⟨c.validate_eq, validate_succeeds_iff c, fun _ => openConfig_of_failing, fun valid =>
    ⟨ofConfig c, openConfig_of_isValid valid, shows_ofConfig valid,
      fun few _ listed => attached_ofConfig few valid listed⟩⟩

/-- A configuration in which a region names an agent twice. -/
def namedTwice : Config where
  agents := [Config.cpu, Config.gpu]
  regions := [⟨Config.system, ["gpu0", "cpu0", "gpu0"]⟩,
    ⟨Config.groupMemory "gpu0-group", ["gpu0"]⟩]
  softQueueCapacity := 0
  workerThreads := 0
  processorPollUs := 1

theorem opens_namedTwice : ∃ s, openConfig namedTwice = .ok s ∧ s.Shows namedTwice ∧
    ∀ a ∈ s.agents.values, s.Attached namedTwice a := by
  have valid : namedTwice.IsValid := namedTwice.firstFailing_checks.mp (by decide)
  obtain ⟨s, opened, shows', attached⟩ := (opens_iff_valid namedTwice).2.2.2 valid
  exact ⟨s, opened, shows', attached (by decide)⟩

end Session

end Accelerator
