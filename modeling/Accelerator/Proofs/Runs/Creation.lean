import Accelerator.Proofs.Accounts.Accesses
import Accelerator.Proofs.Runs.Numbers

/-!
# Making queues

Before a queue is made, a number of conditions are checked in a fixed order. Only the first one that
fails is told, whatever else may be wrong with the request, and then nothing has happened. The
conditions are stated here without the numbers that the session keeps for them: how many queues of
an agent are live, and how many bytes of a region are handed out. What a region can hold is a matter
of plain arithmetic.

If all conditions hold and the host has memory and threads, there is a queue: it is active and
empty, all of its slots are unpublished, it lies at a multiple of the size of a packet, and neither
its handle nor its number have been seen before.

## Checks as a list

The checks are a list of conditions, each with its fault, in the order in which they are made. The
list does not mention the actions. It is the specification; `Action.Checked` says that an action
goes through it, and is proved along the chain, one lemma for each kind of check.

Whether a region has room is stated without words. The program adds words, and where a sum is no
word it refuses. The list compares sums of numbers; that a sum is a word is a check only where its
failure has a fault of its own.

## Main definitions

* `firstFailing`, `Action.Checked`: checks in order, and an action that goes through them.
* `Session.queueChecks`, `Session.softQueueChecks`: what is checked before a queue is made.
* `Session.NewQueue`: a queue that was just made.

## Main results

* `Memory.plan_eq`: what a region can hold, in plain numbers.
* `Session.Hosted.isValid`: regions are as a valid configuration has them, along every run.
* `Session.Hosted.creates_or_refuses`: the first check that fails is told, or there is a new queue.
-/

namespace Accelerator

/-! ### Checks in order -/

section Checks

variable {ε ε' : Type} {e : ε} {checks : List (Bool × ε)}

/-- What is told of checks in order: the fault of the first one that fails. -/
def firstFailing (checks : List (Bool × ε)) : Option ε :=
  (checks.find? fun check => !check.1).map (·.2)

@[simp] theorem firstFailing_nil : firstFailing ([] : List (Bool × ε)) = none := rfl

@[simp] theorem firstFailing_true : firstFailing ((true, e) :: checks) = firstFailing checks := rfl

@[simp] theorem firstFailing_false : firstFailing ((false, e) :: checks) = some e := rfl

theorem firstFailing_eq_none : firstFailing checks = none ↔ ∀ check ∈ checks, check.1 = true := by
  simp [firstFailing]

theorem firstFailing_append (first second : List (Bool × ε)) :
    firstFailing (first ++ second) = (firstFailing first).or (firstFailing second) := by
  rw [firstFailing, List.find?_append, Option.map_or]
  rfl

/-- Of checks of the elements of a list, in order, the one of the first for which something holds
that should not. -/
theorem firstFailing_each {α : Type} (bad : α → Bool) (cause : α → ε) (xs : List α) :
    firstFailing (xs.map fun x => (!bad x, cause x)) = (xs.find? bad).map cause := by
  simp [firstFailing, List.find?_map, Function.comp_def]

/-- No name is taken if neither the first of those that are nor any of the others is. -/
theorem forall_notMem_cons {α : Type} {name : α → String} {first : String} {seen : List String}
    {xs : List α} : (∀ x ∈ xs, name x ∉ first :: seen) ↔
      first ∉ xs.map name ∧ ∀ x ∈ xs, name x ∉ seen := by
  simp only [List.mem_cons, not_or, List.mem_map, not_exists, not_and, forall_and]

theorem firstFailing_map (g : ε → ε') (checks : List (Bool × ε)) :
    firstFailing (checks.map fun check => (check.1, g check.2)) = (firstFailing checks).map g := by
  induction checks with
  | nil => rfl
  | cons check rest ih =>
    obtain ⟨_ | _, e⟩ := check
    · rfl
    · exact ih

end Checks

namespace Action

variable {α β : Type} {x : Action α} {s : Session} {e : Fault} {p p' : Bool}
variable {checks : List (Bool × Fault)} {P : α → Session → Prop}

/-- In a session the action goes through checks in order. The first one that fails is told, and
nothing else happens; if none fails, there is an answer. -/
def Checked (checks : List (Bool × Fault)) (x : Action α) (s : Session)
    (P : α → Session → Prop) : Prop :=
  match firstFailing checks with
  | some e => x s = (.error e, s)
  | none => ∃ a t, x s = (.ok a, t) ∧ P a t

namespace Checked

theorem congr {y : Action α} (same : x s = y s) (checked : Checked checks y s P) :
    Checked checks x s P := by
  rw [Checked] at checked ⊢
  rw [same]
  exact checked

/-- The action goes on from its answer, and nothing can fail any more. -/
theorem followed {f : α → Action β} {P' : β → Session → Prop} (checked : Checked checks x s P)
    (goesOn : ∀ a t, P a t → ∃ b u, f a t = (.ok b, u) ∧ P' b u) :
    Checked checks (x >>= f) s P' := by
  rw [Checked] at checked ⊢
  cases failing : firstFailing checks with
  | some e =>
    rw [failing] at checked
    exact bind_of_error checked
  | none =>
    rw [failing] at checked
    obtain ⟨a, t, answer, known⟩ := checked
    obtain ⟨b, u, rest, new⟩ := goesOn a t known
    exact ⟨b, u, (bind_of_ok answer).trans rest, new⟩

/-- A check comes before the others. -/
theorem require {f : Unit → Action α} (same : p' = p)
    (rest : p = true → Checked checks (f ()) s P) :
    Checked ((p', e) :: checks) (Action.require p e >>= f) s P := by
  subst same
  cases p' with
  | false => rfl
  | true => exact rest rfl

/-- Something must be there, and the checks after that have to do with it. -/
theorem demand {o : Option β} {f : β → Action α} {checks : β → List (Bool × Fault)}
    (rest : ∀ b, o = some b → Checked (checks b) (f b) s P) :
    Checked ((o.isSome, e) :: o.elim [] checks) (Action.demand o e >>= f) s P := by
  cases o with
  | none => rfl
  | some b => exact rest b rfl

theorem session {f : Session → Action α} (rest : Checked checks (f s) s P) :
    Checked checks (Action.session >>= f) s P :=
  rest.congr rfl

theorem ensureOpen {f : Unit → Action α} (rest : s.isOpen = true → Checked checks (f ()) s P) :
    Checked ((s.isOpen, .notInitialized) :: checks) (Session.ensureOpen >>= f) s P :=
  (Checked.require rfl rest).congr rfl

/-- Looking something up starts with the session, which must be open. -/
theorem opened {x : Action β} {f : β → Action α}
    (closed : s.isOpen = false → x s = (.error .notInitialized, s))
    (rest : s.isOpen = true → Checked checks (x >>= f) s P) :
    Checked ((s.isOpen, .notInitialized) :: checks) (x >>= f) s P := by
  cases isOpen : s.isOpen with
  | false =>
    show (x >>= f) s = (.error .notInitialized, s)
    rw [bind_apply, closed isOpen]
  | true => exact rest isOpen

/-- In an open session, what is looked for is found or missing. -/
theorem lookUp {x : Action β} {o : Option β} {f : β → Action α} {checks : β → List (Bool × Fault)}
    (asked : x s = Action.demand o e s) (rest : ∀ b, o = some b → Checked (checks b) (f b) s P) :
    Checked ((o.isSome, e) :: o.elim [] checks) (x >>= f) s P := by
  refine (Checked.demand rest).congr ?_
  rw [bind_apply, bind_apply, asked]

theorem knownAgent {h : Handle} {f : Agent → Action α} {checks : Agent → List (Bool × Fault)}
    (isOpen : s.isOpen = true)
    (rest : ∀ a, s.agents.get? h = some a → Checked (checks a) (f a) s P) :
    Checked (((s.agents.get? h).isSome, .invalidAgent h) :: (s.agents.get? h).elim [] checks)
      (Session.agent h >>= f) s P := by
  refine lookUp ?_ rest
  rw [Session.agent, Session.ensureOpen_bind isOpen]
  rfl

theorem agent {h : Handle} {f : Agent → Action α} {checks : Agent → List (Bool × Fault)}
    (rest : s.isOpen = true → ∀ a, s.agents.get? h = some a → Checked (checks a) (f a) s P) :
    Checked ((s.isOpen, .notInitialized) ::
        ((s.agents.get? h).isSome, .invalidAgent h) :: (s.agents.get? h).elim [] checks)
      (Session.agent h >>= f) s P := by
  refine opened (fun isOpen => ?_) fun isOpen => knownAgent isOpen (rest isOpen)
  simp [Session.agent, Session.ensureOpen, bind_apply, Action.require, isOpen]

theorem executable {h : Handle} {f : Executable → Action α}
    {checks : Executable → List (Bool × Fault)}
    (rest : s.isOpen = true → ∀ e, s.executables.get? h = some e →
      Checked (checks e) (f e) s P) :
    Checked ((s.isOpen, .notInitialized) ::
        ((s.executables.get? h).isSome, .invalidExecutable h) ::
        (s.executables.get? h).elim [] checks)
      (Session.executable h >>= f) s P := by
  refine opened (fun isOpen => ?_) fun isOpen => lookUp ?_ (rest isOpen)
  · simp [Session.executable, Session.ensureOpen, bind_apply, Action.require, isOpen]
  · rw [Session.executable, Session.ensureOpen_bind isOpen]
    rfl

theorem region {h : Handle} {f : Region → Action α} {checks : Region → List (Bool × Fault)}
    (isOpen : s.isOpen = true)
    (rest : ∀ r, s.regions.get? h = some r → Checked (checks r) (f r) s P) :
    Checked (((s.regions.get? h).isSome, .invalidRegion h) :: (s.regions.get? h).elim [] checks)
      (Session.region h >>= f) s P := by
  refine lookUp ?_ rest
  rw [Session.region, Session.ensureOpen_bind isOpen]
  rfl

theorem signal {h : Handle} {f : Signal → Action α} (isOpen : s.isOpen = true)
    (rest : ∀ signal, s.signals.get? h = some signal → Checked checks (f signal) s P) :
    Checked ((s.signals.isLive h, .invalidSignal h) :: checks) (Session.signal h >>= f) s P := by
  have found : (Session.signal h >>= f) s =
      (Action.demand (s.signals.get? h) (.invalidSignal h) >>= f) s := by
    rw [bind_apply, Session.signal, Session.ensureOpen_bind isOpen]
    rfl
  refine Checked.congr found ?_
  rw [Directory.isLive]
  cases live : s.signals.get? h with
  | none => rfl
  | some signal => exact rest signal live

end Checked

end Action

/-! ### What a region can hold -/

/-- A size rounded up to a multiple of a granule; a granule of 0 counts as 1. -/
def RegionInfo.roundUp (info : RegionInfo) (size : Nat) : Nat :=
  (size + (max info.granule.toNat 1 - 1)) / max info.granule.toNat 1 * max info.granule.toNat 1

/-- What a region of a valid configuration is like. -/
structure RegionInfo.IsValid (info : RegionInfo) : Prop where
  alignment : info.alignment.toNat.isPowerOfTwo
  granule : info.granule ≠ 0

/-- What is checked before a region of which some bytes are in use hands out a block. -/
def Region.blockChecks (r : Region) (used : Nat) (size : UInt64) : List (Bool × AllocationFault) :=
  [(r.info.allocAllowed, .notAllowed r.info.name),
    (size ≤ r.info.maxAllocation, .tooLarge size r.info.maxAllocation r.info.name),
    (size.toNat + (max r.info.granule.toNat 1 - 1) < 2 ^ 64, .granuleOverflow size),
    (used + r.info.roundUp size.toNat ≤ r.info.capacity.toNat,
      .regionFull r.info.name r.inUse r.info.capacity)]

theorem Word.toNat_max (a b : UInt64) : (max a b).toNat = max a.toNat b.toNat := by
  change (if a ≤ b then b else a).toNat = _
  split
  case isTrue le => exact (Nat.max_eq_right (UInt64.le_iff_toNat_le.mp le)).symm
  case isFalse more =>
    have le : b ≤ a := UInt64.le_of_lt (UInt64.not_le.mp more)
    exact (Nat.max_eq_left (UInt64.le_iff_toNat_le.mp le)).symm

theorem RegionInfo.roundedSize_eq (info : RegionInfo) (size : UInt64) : info.roundedSize size =
    if size.toNat + (max info.granule.toNat 1 - 1) < 2 ^ 64 then
      some (.ofNat (info.roundUp size.toNat)) else none := by
  have grain : (max info.granule 1).toNat = max info.granule.toNat 1 := Word.toNat_max _ 1
  have least : (1 : UInt64) ≤ max info.granule 1 := by
    rw [UInt64.le_iff_toNat_le, grain]
    exact Nat.le_max_right _ _
  have less : (max info.granule 1 - 1).toNat = max info.granule.toNat 1 - 1 := by
    rw [UInt64.toNat_sub_of_le _ _ least, grain]
    rfl
  rw [roundedSize]
  split
  case isTrue fits =>
    obtain ⟨sum, added⟩ : ∃ sum, Word.add? size (max info.granule 1 - 1) = some sum := by
      rw [Word.add?, less]
      exact ⟨_, if_pos fits⟩
    have total := Word.add?_eq_some.mp added
    rw [less] at total
    have small : sum.toNat / max info.granule.toNat 1 * max info.granule.toNat 1 < 2 ^ 64 :=
      (Nat.div_mul_le_self _ _).trans_lt sum.toNat_lt
    rw [added, Option.map_some, roundUp, ← total]
    refine congrArg some (UInt64.toNat_inj.mp ?_)
    rw [UInt64.toNat_mul, UInt64.toNat_div, grain, Nat.mod_eq_of_lt small, UInt64.toNat_ofNat',
      Nat.mod_eq_of_lt small]
  case isFalse large =>
    have none : Word.add? size (max info.granule 1 - 1) = none := by
      rw [Word.add?_eq_none, less]
      exact Nat.not_lt.mp large
    rw [none]
    rfl

theorem RegionInfo.roundUp_lt {info : RegionInfo} {size : Nat}
    (fits : size + (max info.granule.toNat 1 - 1) < 2 ^ 64) : info.roundUp size < 2 ^ 64 :=
  (Nat.div_mul_le_self _ _).trans_lt fits

theorem RegionInfo.toNat_roundedSize {info : RegionInfo} {size rounded : UInt64}
    (fits : info.roundedSize size = some rounded) : rounded.toNat = info.roundUp size.toNat := by
  rw [roundedSize_eq] at fits
  split at fits
  case isTrue below =>
    cases fits
    exact UInt64.toNat_ofNat_of_lt' (roundUp_lt below)
  case isFalse => cases fits

/-- A region can hold more bytes as long as they fit its capacity; the sum may not even fit a
word. -/
theorem Region.canReserve_eq (r : Region) {size : UInt64} :
    r.canReserve size = decide (r.inUse.toNat + size.toNat ≤ r.info.capacity.toNat) := by
  rw [canReserve]
  cases sum : Word.add? r.inUse size with
  | none =>
    have large := Word.add?_eq_none.mp sum
    have capacity := r.info.capacity.toNat_lt
    exact (decide_eq_false (by omega)).symm
  | some total =>
    have same := Word.add?_eq_some.mp sum
    dsimp only
    rw [decide_eq_decide, UInt64.le_iff_toNat_le, same]

/-- What a region can hold, in plain numbers. -/
theorem Memory.plan_eq {r : Region} {size : UInt64} (positive : size ≠ 0) :
    plan r size = match firstFailing (r.blockChecks r.inUse.toNat size) with
      | some cause => .error cause
      | none => .ok (.ofNat (r.info.roundUp size.toNat)) := by
  rw [plan, if_neg positive, RegionInfo.roundedSize_eq, Region.blockChecks]
  cases r.info.allocAllowed with
  | false => rfl
  | true =>
    rw [firstFailing_true, if_neg (by simp)]
    by_cases small : size ≤ r.info.maxAllocation
    case neg => rw [if_pos (UInt64.not_le.mp small), decide_eq_false small, firstFailing_false]
    rw [if_neg (UInt64.not_lt.mpr small), decide_eq_true small, firstFailing_true]
    by_cases fits : size.toNat + (max r.info.granule.toNat 1 - 1) < 2 ^ 64
    case neg => rw [if_neg fits, decide_eq_false fits, firstFailing_false]
    rw [if_pos fits, decide_eq_true fits, firstFailing_true]
    dsimp only
    have same : (UInt64.ofNat (r.info.roundUp size.toNat)).toNat = r.info.roundUp size.toNat := by
      rw [UInt64.toNat_ofNat', Nat.mod_eq_of_lt (RegionInfo.roundUp_lt fits)]
    rw [r.canReserve_eq, same]
    by_cases room : r.inUse.toNat + r.info.roundUp size.toNat ≤ r.info.capacity.toNat
    · rw [decide_eq_true room]
      rfl
    · rw [decide_eq_false room]
      rfl

theorem RegionInfo.le_roundUp (info : RegionInfo) (size : Nat) : size ≤ info.roundUp size := by
  rw [roundUp]
  generalize grain : max info.granule.toNat 1 = granule
  have positive : 0 < granule := grain ▸ Nat.le_max_right _ _
  have parts := Nat.div_add_mod (size + (granule - 1)) granule
  have rest := Nat.mod_lt (size + (granule - 1)) positive
  rw [Nat.mul_comm] at parts
  omega

/-- The host has a block for a request, and the block starts at a multiple of the alignment that was
asked for. -/
def Host.Serves (host : Host) (size alignment : Nat) : Prop :=
  ∃ start next, host.allocate? size alignment = some (start, next) ∧ alignment ∣ start.toNat

namespace Session

open Accelerator.Action

variable {s t : Session} {h : Handle} {q : Queue} {a : Agent} {r : Region}

/-! ### Regions keep their properties -/

/-- The regions are as before but for the bytes in use. -/
def SameRegions (s t : Session) : Prop :=
  ∀ h, (t.regions.get? h).map Region.info = (s.regions.get? h).map Region.info

theorem sameRegions_of_eq (same : t.regions = s.regions) : s.SameRegions t :=
  fun h => congrArg (fun regions : Arena Region => (regions.get? h).map Region.info) same

/-- Counting the bytes in use of a region is no change of the region. -/
theorem sameRegions_modifyRegion (s : Session) (h : Handle) {f : Region → Region}
    (kept : ∀ r, (f r).info = r.info) : s.SameRegions (s.modifyRegion h f) :=
  Arena.map_get?_modify kept s.regions h

theorem SameRegions.trans {u : Session} (first : s.SameRegions t) (second : t.SameRegions u) :
    s.SameRegions u :=
  fun h => (second h).trans (first h)

theorem sameRegions_tearDown (s : Session) (q : Queue) : s.SameRegions (s.tearDown q) := by
  have place : (s.giveUpPlace q).regions = s.regions := by
    rcases s.giveUpPlace_cases q with ⟨a, signals, -, same⟩ | ⟨-, same⟩
    · rw [same]
      rfl
    · rw [same]
  rcases s.tearDown_cases q with ⟨same, -⟩ | ⟨address, a, memory, -, -, same⟩
  · exact sameRegions_of_eq (same ▸ place)
  · have given : s.SameRegions { s.giveUpPlace q with memory } := sameRegions_of_eq place
    rw [same]
    exact given.trans (sameRegions_modifyRegion _ _ fun _ => rfl)

theorem sameRegions_withoutQueues (s : Session) : s.SameRegions s.withoutQueues := by
  have each : ∀ (qs : List Queue) (m : Session), m.SameRegions (qs.foldl tearDown m) := by
    intro qs
    induction qs with
    | nil => exact fun m => sameRegions_of_eq rfl
    | cons q rest ih => exact fun m => (m.sameRegions_tearDown q).trans (ih _)
  have drained : s.SameRegions { s with queues := s.queues.drain Queue.destroy } :=
    sameRegions_of_eq rfl
  exact drained.trans (each s.queues.values _)

theorem sameRegions_ended (s : Session) : s.SameRegions s.ended := by
  have released : ∀ (blocks : List (UInt64 × Allocation)) (regions : Arena Region) (h : Handle),
      ((releaseBlocks blocks regions).get? h).map Region.info =
        (regions.get? h).map Region.info := by
    intro blocks
    induction blocks with
    | nil => exact fun _ _ => rfl
    | cons entry rest ih =>
      intro regions h
      have same : ∀ r : Region, (r.release entry.2.size).info = r.info := fun _ => rfl
      exact (ih _ h).trans (Arena.map_get?_modify same regions entry.2.region h)
  rw [ended, releaseMemory_eq]
  exact fun h => (released _ _ h).trans (s.sameRegions_withoutQueues h)

theorem Effect.regions (effect : s.Effect t) : s.SameRegions t := by
  cases effect with
  | routine routine => exact sameRegions_of_eq routine.sameAccounts.regions
  | createSignal | assign | serve | register | createQueue => exact sameRegions_of_eq rfl
  | @allocate h r size start rounded memory =>
    exact sameRegions_modifyRegion { s with memory } r.handle fun _ => rfl
  | @free address a memory =>
    exact sameRegions_modifyRegion { s with memory } a.region fun _ => rfl
  | @createSoftQueue h r => exact s.sameRegions_modifyRegion r.handle fun _ => rfl
  | destroyQueue => exact sameRegions_tearDown _ _
  | @withdrawQueue _ _ a _ host _ _ q queues =>
    have placed : s.SameRegions { s.withHardwareQueue a q host with queues } :=
      sameRegions_of_eq rfl
    exact placed.trans (sameRegions_tearDown _ q.destroy)
  | shutDown => exact s.sameRegions_ended

/-- Whatever happens in a session, its regions keep their properties. -/
theorem Step.regions {turn : Turn} (step : Step turn s t) (wf : s.WellFormed) :
    s.SameRegions t := by
  cases step with
  | @application _ o room =>
    rcases reloads_or_effect room wf.queues o with reloads | effect
    · exact sameRegions_of_eq reloads.sameAccounts.regions
    · exact effect.regions
  | processor live stepped =>
    obtain ⟨p, deeds, -, move⟩ := Move.exists_of_stepProcessor? stepped
    exact sameRegions_of_eq move.sameAccounts.regions

/-- The regions of a valid configuration are valid. -/
theorem isValid_of_validateRegions {agents seen : List String} {regions : List RegionConfig}
    (valid : Config.validateRegions agents seen regions = .ok ()) :
    ∀ r ∈ regions, r.info.IsValid := by
  induction regions generalizing seen with
  | nil => exact nofun
  | cons first rest ih =>
    rw [Config.validateRegions] at valid
    cases checked : Config.validateRegion agents seen first with
    | error cause =>
      rw [checked] at valid
      cases valid
    | ok _ =>
      rw [checked] at valid
      have here : first.info.IsValid := by
        rw [Config.validateRegion] at checked
        split at checked
        · cases checked
        · split at checked
          · cases checked
          case isFalse aligned =>
            split at checked
            · cases checked
            case isFalse positive => exact ⟨not_not.mp aligned, positive⟩
      intro r listed
      rcases List.mem_cons.mp listed with rfl | listed
      · exact here
      · exact ih valid r listed

theorem isValid_openConfig {c : Config} (opened : openConfig c = .ok s)
    (live : s.regions.get? h = some r) : r.info.IsValid := by
  have regions : Config.validateRegions (c.agents.map (·.name)) [] c.regions = .ok () := by
    cases valid : c.validate with
    | error cause =>
      rw [openConfig, valid] at opened
      cases opened
    | ok _ =>
      rw [Config.validate] at valid
      cases agents : Config.validateAgents [] c.agents with
      | error cause =>
        rw [agents] at valid
        cases valid
      | ok _ =>
        rw [agents] at valid
        cases regions : Config.validateRegions (c.agents.map (·.name)) [] c.regions with
        | error cause =>
          rw [regions] at valid
          cases valid
        | ok _ => rfl
  rw [openConfig_eq_ok opened] at live
  let make := fun (h : Handle) (r : RegionConfig) =>
    Region.ofInfo h r.info (r.owners.filterMap (agentNamed? (openAgents c)))
  obtain ⟨region, listed, rfl⟩ := @Arena.exists_of_get?_fill _ _ _ _ make _ live
  exact isValid_of_validateRegions regions region listed

/-- Along every run the regions are valid. -/
theorem Hosted.isValid (hosted : s.Hosted) (live : s.regions.get? h = some r) :
    r.info.IsValid := by
  induction hosted generalizing r with
  | opened opened => exact isValid_openConfig opened live
  | rehost _ _ ih => exact ih live
  | step before _ step ih =>
    have same := step.regions before.wellFormed h
    rw [live, Option.map_some] at same
    obtain ⟨r', before, info⟩ := Option.map_eq_some_iff.mp same.symm
    exact info ▸ ih before

/-! ### New queues -/

/-- There is what a new queue takes: a handle for it and one for a doorbell, and a block of the host
for its ring. -/
def Provides (s : Session) (bytes alignment : Nat) : Prop :=
  s.HasRoom ∧ s.memory.host.Serves bytes alignment

/-- A queue that was just made: it is found by its handle, which has not been seen before, and
neither has its number; it is active and empty, and all of its slots are unpublished. -/
structure NewQueue (s : Session) (size : UInt32) (type : QueueType) (q : Queue) (t : Session) :
    Prop where
  live : t.queues.get? q.handle = some q
  newHandle : s.heldQueue? q.handle = none
  newNumber : ∀ h q', s.heldQueue? h = some q' → q'.id ≠ q.id
  type : q.type = type
  active : q.state = .active
  readIndex : q.ring.readIndex = 0
  writeIndex : q.ring.writeIndex = 0
  slots : q.ring.slots.size = size.toNat
  unpublished : ∀ slot ∈ q.ring.slots, slot.header.isUnpublished = true
  aligned : 64 ∣ q.baseAddress.toNat

/-- A new hardware queue has a place of its agent, and a new doorbell that reads -1. -/
structure NewHardwareQueue (s : Session) (h : Handle) (size : UInt32) (type : QueueType)
    (q : Queue) (t : Session) : Prop extends NewQueue s size type q t where
  agent : q.agent = some h
  newDoorbell : s.heldSignal? q.doorbell = none
  idle : (t.signals.get? q.doorbell).map Signal.value = some (-1)

/-- A new soft queue is for the application to consume, has the doorbell that it was given, and lies
in memory that was allocated for it. -/
structure NewSoftQueue (s : Session) (region : Handle) (size : UInt32) (type : QueueType)
    (features : Features) (doorbell : Handle) (q : Queue) (t : Session) : Prop
    extends NewQueue s size type q t where
  agent : q.agent = none
  features : q.features = features
  doorbell : q.doorbell = doorbell
  ring : ∃ a, (q.baseAddress, a) ∈ t.memory.allocations ∧ a.region = region ∧
    a.usage = .queueRing ∧ size.toNat * 64 ≤ a.size.toNat

/-- A block that a region cannot hold. -/
theorem allocateFrom_refused {size alignment : UInt64} {usage : AllocationUse}
    {cause : AllocationFault} (positive : size ≠ 0)
    (failing : firstFailing (r.blockChecks r.inUse.toNat size) = some cause) :
    s.allocateFrom r size alignment usage = .error cause := by
  rw [allocateFrom, Memory.allocate, Memory.plan_eq positive, failing]
  rfl

/-- A block that a region can hold, and for which the host has memory. -/
theorem exists_allocate {m : Memory} {size start : UInt64} {next : Host} (alignment : UInt64)
    (usage : AllocationUse) (positive : size ≠ 0)
    (holds : firstFailing (r.blockChecks r.inUse.toNat size) = none)
    (served : m.host.allocate? (r.info.roundUp size.toNat)
      (max alignment.toNat r.info.alignment.toNat) = some (start, next)) :
    ∃ rounded memory, m.allocate r size alignment usage = .ok (start, rounded, memory) := by
  have fits : size.toNat + (max r.info.granule.toNat 1 - 1) < 2 ^ 64 :=
    of_decide_eq_true (firstFailing_eq_none.mp holds _
      (List.mem_cons_of_mem _ (List.mem_cons_of_mem _ List.mem_cons_self)))
  have size_eq : (UInt64.ofNat (r.info.roundUp size.toNat)).toNat = r.info.roundUp size.toNat := by
    rw [UInt64.toNat_ofNat', Nat.mod_eq_of_lt (RegionInfo.roundUp_lt fits)]
  rw [Memory.allocate, Memory.plan_eq positive, holds]
  dsimp only [bind, Except.bind]
  rw [size_eq, Word.toNat_max, served]
  exact ⟨_, _, rfl⟩

theorem allocateFrom_granted {size start : UInt64} {next : Host} (alignment : UInt64)
    (usage : AllocationUse) (positive : size ≠ 0)
    (holds : firstFailing (r.blockChecks r.inUse.toNat size) = none)
    (served : s.memory.host.allocate? (r.info.roundUp size.toNat)
      (max alignment.toNat r.info.alignment.toNat) = some (start, next)) :
    ∃ rounded memory a, s.allocateFrom r size alignment usage =
        .ok (start, rounded, { s with memory }.modifyRegion r.handle (·.reserve rounded)) ∧
      (start, a) ∈ memory.allocations ∧ a.region = r.handle ∧ a.usage = usage ∧
      size.toNat ≤ a.size.toNat := by
  obtain ⟨rounded, memory, taken⟩ := exists_allocate alignment usage positive holds served
  obtain ⟨planned, host, -, same⟩ := Memory.allocate_eq_ok taken
  have wide := r.info.le_roundUp size.toNat
  rw [← RegionInfo.toNat_roundedSize (Memory.plan_eq_ok planned).2.1] at wide
  refine ⟨rounded, memory, ⟨rounded, r.handle, r.owners.head?, .readWrite, usage⟩, ?_, ?_, rfl, rfl,
    wide⟩
  · rw [allocateFrom, taken]
    rfl
  · rw [same]
    exact (Memory.perm_insertAllocation ..).mem_iff.mpr List.mem_cons_self

theorem dvd_max_of_isPowerOfTwo {n : Nat} (power : n.isPowerOfTwo) : 64 ∣ max 64 n := by
  obtain ⟨k, rfl⟩ := power
  change 2 ^ 6 ∣ max (2 ^ 6) (2 ^ k)
  rcases Nat.le_total k 6 with few | many
  · rw [Nat.max_eq_left (Nat.pow_le_pow_right Nat.two_pos few)]
  · rw [Nat.max_eq_right (Nat.pow_le_pow_right Nat.two_pos many)]
    exact Nat.pow_dvd_pow 2 many

/-- A queue that is put at the next handle, with the next number and an empty ring. -/
theorem Hosted.newQueue (hosted : s.Hosted) (room : s.HasRoom) {size : UInt32} {type : QueueType}
    (named : q.handle = s.queues.nextHandle) (number : q.id = s.nextQueueId)
    (ring : q.ring = .ofSize size) (active : q.state = .active) (typed : q.type = type)
    (aligned : 64 ∣ q.baseAddress.toNat) (queues : t.queues = s.queues.insert q) :
    s.NewQueue size type q t where
  live := by rw [queues, Directory.get?_insert hosted.wellFormed.queues room.2.1, if_pos named]
  newHandle := by
    refine Option.eq_none_iff_forall_ne_some.mpr fun q' held => ?_
    exact hosted.wellFormed.queues.ne_nextHandle room.2.1 held named
  newNumber h q' held same := by
    have below := hosted.numbered.below h q' held
    rw [same, number] at below
    exact Nat.lt_irrefl _ below
  type := typed
  active := active
  readIndex := congrArg PacketRing.readIndex ring
  writeIndex := congrArg PacketRing.writeIndex ring
  slots := by rw [ring, PacketRing.ofSize, Array.size_replicate]
  unpublished slot inside := by
    rw [ring, PacketRing.ofSize, Array.mem_replicate] at inside
    rw [inside.2]
    exact isUnpublished_unpublished
  aligned := aligned

theorem toNat_storageBytes (size : UInt32) :
    (PacketRing.storageBytes size).toNat = size.toNat * 64 := by
  have small := size.toNat_lt
  rw [PacketRing.storageBytes, UInt64.toNat_ofNat', Packet.size, Nat.mod_eq_of_lt (by omega)]

theorem storageBytes_ne_zero {size : UInt32} (power : size.toNat.isPowerOfTwo) :
    PacketRing.storageBytes size ≠ 0 := by
  intro zero
  have bytes := toNat_storageBytes size
  obtain ⟨k, slots⟩ := power
  rw [zero, slots, UInt64.toNat_zero] at bytes
  exact (Nat.mul_pos (Nat.two_pow_pos k) (by decide)).ne bytes

/-! ### Hardware queues -/

/-- What is checked before a hardware queue is made for an agent. -/
def queueChecks (s : Session) (h : Handle) (size : UInt32) (type : QueueType) :
    List (Bool × Fault) :=
  (s.isOpen, .notInitialized) ::
  ((s.agents.get? h).isSome, .invalidAgent h) ::
  (s.agents.get? h).elim [] fun a =>
    [(size.toNat.isPowerOfTwo, .argument (.sizeNotPowerOfTwo size)),
      (a.info.queueMinSize ≤ size && size ≤ a.info.queueMaxSize,
        .argument (.sizeOutOfRange size a.info.queueMinSize a.info.queueMaxSize a.info.name)),
      (a.info.features.canDispatch && a.info.queueMaxCount != 0, .queue (.noQueues a.info.name)),
      (a.info.queueType.supports type, .queue (.unsupported a.info.name type)),
      (s.queues.values.countP (fun q => q.agent = some h) < a.info.queueMaxCount.toNat,
        .queue (.agentFull a.info.name a.info.queueMaxCount))]

theorem Hosted.hasRoom_eq (hosted : s.Hosted) (live : s.agents.get? h = some a) :
    decide (s.queues.values.countP (fun q => q.agent = some h) < a.info.queueMaxCount.toNat) =
      a.hasRoom := by
  rw [Agent.hasRoom, decide_eq_decide, UInt32.lt_iff_toNat_lt,
    (hosted.kept.balanced.agents h a live).1]

/-- A hardware queue is put in its place if all checks pass and the host has memory; otherwise the
first check that fails is told. -/
theorem Hosted.checked_placeQueue (hosted : s.Hosted) (h : Handle) (size : UInt32)
    (type : QueueType) (options : QueueOptions)
    (provides : firstFailing (s.queueChecks h size type) = none →
      s.Provides (size.toNat * 64) 64) :
    Checked (s.queueChecks h size type) (placeQueue h size type options) s fun q t =>
      s.NewHardwareQueue h size type q t ∧
        t.memory.host.threadFault = s.memory.host.threadFault := by
  rw [queueChecks] at provides ⊢
  refine Checked.agent fun isOpen a live => ?_
  rw [live] at provides
  refine .require rfl fun power => .require rfl fun range => .require rfl fun hosts =>
    .require rfl fun supported => .require (hosted.hasRoom_eq live) fun roomy => ?_
  have wf := hosted.wellFormed
  have here := wf.agents h a live
  obtain ⟨room, start, next, served, aligned⟩ := provides (by
    have counted := (hosted.hasRoom_eq live).trans roomy
    rw [Agent.hostsQueues] at hosts
    simp only [isOpen, Option.isSome_some, Option.elim_some, power, range, hosts, supported,
      counted]
    rfl)
  have taken : PacketRing.allocate? size (s.modifyAgent a.handle (·.addQueue)).memory.host =
      some (.ofSize size, start, next) := by
    rw [PacketRing.allocate?, if_pos (of_decide_eq_true power), toNat_storageBytes]
    exact congrArg (Option.map _) served
  change ∃ q t, _ = (Except.ok q, t) ∧ _
  rw [bind_apply, change_apply]
  dsimp only
  rw [bind_apply, session_apply]
  dsimp only
  rw [taken]
  dsimp only
  rw [bind_apply, change_apply]
  dsimp only
  rw [bind_apply, createSignal_unnamed (by exact isOpen)]
  have signals := hosted.signals
  have rings : (s.signals.insert ⟨s.signals.nextHandle, idleDoorbell, []⟩).get?
      s.signals.nextHandle = some ⟨s.signals.nextHandle, idleDoorbell, []⟩ := by
    rw [Directory.get?_insert signals room.1, if_pos rfl]
  refine ⟨_, _, rfl, ⟨hosted.newQueue room rfl rfl rfl rfl rfl aligned rfl, congrArg some here, ?_,
    congrArg (Option.map Signal.value) rings⟩, threadFault_of_allocate? served⟩
  refine Option.eq_none_iff_forall_ne_some.mpr fun signal held => ?_
  exact signals.ne_nextHandle room.1 held rfl

/-- A hardware queue is made if all checks pass and the host has memory and threads; otherwise the
first check that fails is told. -/
theorem Hosted.checked_createQueue (hosted : s.Hosted) (h : Handle) (size : UInt32)
    (type : QueueType) (options : QueueOptions)
    (provides : firstFailing (s.queueChecks h size type) = none →
      s.Provides (size.toNat * 64) 64)
    (threads : s.memory.host.threadFault = none) :
    Checked (s.queueChecks h size type) (createQueue h size type options) s
      (s.NewHardwareQueue h size type) :=
  (hosted.checked_placeQueue h size type options provides).followed fun q t ⟨new, same⟩ =>
    ⟨q, t, startProcessor_eq (same.trans threads) q, new⟩

/-! ### Soft queues -/

/-- What is checked before a soft queue is made over memory of a region. -/
def softQueueChecks (s : Session) (region : Handle) (size : UInt32) (features : Features)
    (doorbell : Handle) : List (Bool × Fault) :=
  (s.isOpen, .notInitialized) ::
  (size.toNat.isPowerOfTwo, .argument (.sizeNotPowerOfTwo size)) ::
  (!doorbell.isNull, .argument .nullDoorbell) ::
  (!features.isEmpty, .argument .noFeatures) ::
  ((s.regions.get? region).isSome, .invalidRegion region) ::
  (s.regions.get? region).elim [] fun r =>
    (s.signals.isLive doorbell, .invalidSignal doorbell) ::
    (s.queues.values.countP Queue.isSoft < s.config.softQueueCapacity.toNat,
      .queue (.softQueuesFull s.config.softQueueCapacity)) ::
    (r.blockChecks (bytesOf s.memory.allocations region) (PacketRing.storageBytes size)).map
      fun check => (check.1, .queue (.ringSpace r.info.name size check.2))

theorem Hosted.softRoom_eq (hosted : s.Hosted) :
    decide (s.queues.values.countP Queue.isSoft < s.config.softQueueCapacity.toNat) =
      decide (s.softQueues < s.config.softQueueCapacity) := by
  rw [decide_eq_decide, UInt32.lt_iff_toNat_lt, hosted.kept.balanced.softQueues.1]

/-- A soft queue is made if all checks pass and the host has memory; otherwise the first check that
fails is told. -/
theorem Hosted.checked_createSoftQueue (hosted : s.Hosted) (region : Handle) (size : UInt32)
    (type : QueueType) (features : Features) (doorbell : Handle)
    (provides : firstFailing (s.softQueueChecks region size features doorbell) = none →
      ∀ r, s.regions.get? region = some r →
        s.Provides (r.info.roundUp (size.toNat * 64)) (max 64 r.info.alignment.toNat)) :
    Checked (s.softQueueChecks region size features doorbell)
      (createSoftQueue region size type features doorbell) s
      (s.NewSoftQueue region size type features doorbell) := by
  rw [softQueueChecks] at provides ⊢
  refine .ensureOpen fun isOpen => .require rfl fun power => .require rfl fun named =>
    .require rfl fun useful => .region isOpen fun r live => .signal isOpen fun bell rings => ?_
  refine .session (.session (.require hosted.softRoom_eq fun roomy => ?_))
  have wf := hosted.kept.books.bytes.balanced region r live
  have positive : PacketRing.storageBytes size ≠ 0 := storageBytes_ne_zero (of_decide_eq_true power)
  have told := firstFailing_map (fun cause => Fault.queue (.ringSpace r.info.name size cause))
    (r.blockChecks (bytesOf s.memory.allocations region) (PacketRing.storageBytes size))
  rw [Checked, told]
  rw [← (hosted.kept.balanced.regions region r live).1] at provides told ⊢
  cases failing : firstFailing (r.blockChecks r.inUse.toNat (PacketRing.storageBytes size)) with
  | some cause =>
    -- the place of the session is given back
    have same : s.softQueues + 1 - 1 = s.softQueues := by simp
    simp only [Option.map_some, bind_apply, change_apply, session_apply, refuse_apply,
      allocateFrom_refused positive failing, same]
  | none =>
    obtain ⟨room, start, next, served, aligned⟩ := provides (by
      have counted := hosted.softRoom_eq.trans roomy
      simp only [isOpen, live, Option.isSome_some, Option.elim_some, power, named, useful, counted,
        Directory.isLive, rings, firstFailing_true, told, failing]
      rfl) r live
    rw [← toNat_storageBytes] at served
    obtain ⟨rounded, memory, a, taken, listed, regional, ring, wide⟩ :=
      allocateFrom_granted (s := { s with softQueues := s.softQueues + 1 })
        (.ofNat Packet.alignment) .queueRing positive failing served
    simp only [Option.map_none, bind_apply, change_apply, session_apply, taken]
    have power' := dvd_max_of_isPowerOfTwo (hosted.isValid live).alignment
    refine ⟨_, _, rfl, hosted.newQueue room rfl rfl rfl rfl rfl (power'.trans aligned) rfl, rfl,
      rfl, hosted.signals.named doorbell bell rings, a, listed, regional.trans wf.1, ring, ?_⟩
    exact toNat_storageBytes size ▸ wide

/-! ### All queues -/

/-- Making a queue tells the first check that fails, and then nothing has happened; if no check
fails and the host has memory, and a thread for a command processor, there is a new queue. -/
theorem Hosted.creates_or_refuses (hosted : s.Hosted) (size : UInt32) (type : QueueType) :
    (∀ agent options,
      (firstFailing (s.queueChecks agent size type) = none → s.Provides (size.toNat * 64) 64) →
      s.memory.host.threadFault = none →
      Checked (s.queueChecks agent size type) (createQueue agent size type options) s
        (s.NewHardwareQueue agent size type)) ∧
    (∀ region features doorbell,
      (firstFailing (s.softQueueChecks region size features doorbell) = none →
        ∀ r, s.regions.get? region = some r →
          s.Provides (r.info.roundUp (size.toNat * 64)) (max 64 r.info.alignment.toNat)) →
      Checked (s.softQueueChecks region size features doorbell)
        (createSoftQueue region size type features doorbell) s
        (s.NewSoftQueue region size type features doorbell)) ∧
    ∀ region cause, (Fault.queue (.ringSpace region size cause)).kind = .outOfResources :=
  ⟨fun agent options => hosted.checked_createQueue agent size type options,
    fun region features doorbell =>
      hosted.checked_createSoftQueue region size type features doorbell,
    fun _ _ => rfl⟩

/-- In a session with one signal, the default graphics processor gets a queue of 64 slots; one of 65
slots would be refused for its size, although it also has the wrong type. A soft queue of 4 slots
can ring the signal. -/
theorem creates_and_refuses_default : ∃ s : Session, s.Hosted ∧
    (∃ q t, createQueue (.ofParts 1 1) 64 .multi ⟨0, 0, false⟩ s = (.ok q, t) ∧
      s.NewHardwareQueue (.ofParts 1 1) 64 .multi q t) ∧
    createQueue (.ofParts 2 1) 65 .multi ⟨0, 0, false⟩ s =
      (.error (.argument (.sizeNotPowerOfTwo 65)), s) ∧
    ∃ q t, createSoftQueue (.ofParts 0 1) 4 .multi .kernelDispatch (.ofParts 0 1) s = (.ok q, t) ∧
      s.NewSoftQueue (.ofParts 0 1) 4 .multi .kernelDispatch (.ofParts 0 1) q t := by
  have opened : Ascending (.ofConfig .default) := .opened (c := .default) rfl
  have signalled := opened.step (.lasting (o := .createSignal 0 0 [])
    ⟨by decide, by decide, by decide⟩ ⟨nofun, nofun⟩)
  have hosted := signalled.hosted
  refine ⟨_, hosted, ?_, ?_, ?_⟩
  · exact (hosted.creates_or_refuses 64 .multi).1 (.ofParts 1 1) ⟨0, 0, false⟩ (fun _ =>
      ⟨⟨by decide, by decide, by decide⟩, _, _, rfl, by decide⟩) rfl
  · exact (hosted.creates_or_refuses 65 .multi).1 (.ofParts 2 1) ⟨0, 0, false⟩ (fun passed =>
      absurd passed (by decide)) rfl
  · refine (hosted.creates_or_refuses 4 .multi).2.1 (.ofParts 0 1) .kernelDispatch (.ofParts 0 1)
      fun _ r live => ?_
    cases live
    exact ⟨⟨by decide, by decide, by decide⟩, _, _, rfl, by decide⟩

end Session

end Accelerator
