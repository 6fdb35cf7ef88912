import Accelerator.Proofs.Runs.Hosted

/-!
# Signals along a run

Signals are made and destroyed by the application, and with hardware queues, which have doorbells of
their own; in between only their values change. So whatever happens in a session, the directory of
signals evolves. In particular a signal that was destroyed is gone for good: its handle is not
issued again.

## Signals and queues

A queue keeps no signal in its place: whoever destroys a doorbell destroys it, and the queue has the
handle of a signal that is gone. So nothing is needed of queues here but that some are made with a
doorbell, which they take with them.

## Main results

* `Session.Step.signals`: a step lets the signals evolve.
* `Session.Hosted.signals`, `Session.Reachable.signals`: along a run they are well-formed.
-/

namespace Accelerator

namespace Session

open Accelerator.Action

variable {s t : Session} {touched : Handle → Prop} {q : Queue} {p : Processor}

/-- The signals of a session come from those of another. -/
def SignalsEvolve (s t : Session) : Prop :=
  s.signals.Evolves Signal.handle (fun _ => True) t.signals

instance : IsPreorder Session SignalsEvolve where
  refl s := .refl s.signals
  trans _ _ _ := .trans

theorem signalsEvolve_of_eq (same : t.signals = s.signals) : s.SignalsEvolve t := by
  rw [SignalsEvolve, same]
  exact .refl _

theorem signalsEvolve_insert (room : s.HasRoom) {signal : Signal}
    (named : signal.handle = s.signals.nextHandle) (same : t.signals = s.signals.insert signal) :
    s.SignalsEvolve t := by
  rw [SignalsEvolve, same]
  exact .insert room.1 named

theorem Routine.signals (routine : s.Routine touched t) : s.SignalsEvolve t := by
  induction routine with
  | refl s => exact refl_of SignalsEvolve s
  | trans _ _ first second => exact trans_of SignalsEvolve first second
  | setSignal s h value => exact .modify trivial fun _ => rfl
  | dropSignal removed => exact .remove trivial (fun _ => rfl) removed
  | fill | ring | inactivate | tick => exact signalsEvolve_of_eq rfl

theorem signals_failPacket (s : Session) (q : Queue) (p : Processor) (cause : Fault) :
    (s.failPacket q p cause).signals = s.signals := by
  rw [failPacket]
  split <;> rfl

theorem signals_advance (s : Session) (q : Queue) (p : Processor) :
    (s.advance q p).signals = s.signals := by
  rw [advance]
  split <;> rfl

theorem Move.signals {deeds : List Deed} (move : s.Move q p deeds t) : s.SignalsEvolve t := by
  cases move with
  | look | resume | leave | skip | run | hold | crash | pass => exact signalsEvolve_of_eq rfl
  | panic => exact signalsEvolve_of_eq (signals_failPacket _ q p _)
  | refuse | give | miss => exact signalsEvolve_of_eq (signals_failPacket s q p _)
  | @complete completion =>
    have counted : s.SignalsEvolve (s.countDown completion) := by
      cases completion with
      | none => exact refl_of SignalsEvolve s
      | some h => exact .modify trivial fun _ => rfl
    exact trans_of SignalsEvolve counted (signalsEvolve_of_eq (signals_advance _ q p))

/-- Tearing a queue down destroys its doorbell at most. -/
theorem signals_tearDown (s : Session) (q : Queue) : s.SignalsEvolve (s.tearDown q) := by
  have place : s.SignalsEvolve (s.giveUpPlace q) := by
    rw [giveUpPlace]
    split
    · dsimp only
      split
      case h_1 removed => exact .remove trivial (fun _ => rfl) removed
      case h_2 => exact signalsEvolve_of_eq rfl
    · exact signalsEvolve_of_eq rfl
  rcases s.tearDown_cases q with ⟨same, -⟩ | ⟨address, a, memory, -, -, same⟩
  · rw [same]
    exact place
  · rw [same]
    exact trans_of SignalsEvolve place (signalsEvolve_of_eq rfl)

theorem signals_shutDown (s : Session) :
    s.SignalsEvolve { s with signals := s.withoutQueues.signals.drain id } := by
  have each : ∀ (qs : List Queue) (m : Session), m.SignalsEvolve (qs.foldl tearDown m) := by
    intro qs
    induction qs with
    | nil => exact fun m => refl_of SignalsEvolve m
    | cons q rest ih => exact fun m => trans_of SignalsEvolve (m.signals_tearDown q) (ih _)
  have tornDown : s.SignalsEvolve s.withoutQueues :=
    each s.queues.values { s with queues := s.queues.drain Queue.destroy }
  exact .trans tornDown (.drain (fun _ _ _ => trivial) fun _ => rfl)

theorem Effect.signals (effect : s.Effect t) (room : s.HasRoom) : s.SignalsEvolve t := by
  cases effect with
  | routine routine => exact routine.signals
  | createSignal named => exact signalsEvolve_insert room named rfl
  | allocate | free | assign | serve | register | createSoftQueue => exact signalsEvolve_of_eq rfl
  | createQueue => exact signalsEvolve_insert room rfl rfl
  | @withdrawQueue _ _ a _ host _ _ q queues =>
    have made : s.SignalsEvolve { s.withHardwareQueue a q host with queues } :=
      signalsEvolve_insert room rfl rfl
    exact trans_of SignalsEvolve made (signals_tearDown _ q.destroy)
  | @destroyQueue h q queues => exact signals_tearDown { s with queues } q
  | shutDown =>
    rw [ended, releaseMemory_eq]
    exact s.signals_shutDown

/-- Whatever happens in a session, its signals evolve. -/
theorem Step.signals {turn : Turn} (step : Step turn s t) (wf : s.WellFormed) :
    s.SignalsEvolve t := by
  cases step with
  | @application _ o room =>
    rcases reloads_or_effect room wf.queues o with ⟨_, _, _, reloaded⟩ | effect
    · rw [reloaded]
      exact signalsEvolve_of_eq rfl
    · exact effect.signals room
  | processor live stepped =>
    obtain ⟨p, deeds, -, move⟩ := Move.exists_of_stepProcessor? stepped
    exact move.signals

/-- Along a run the signals are well-formed. -/
theorem Reachable.signals (reachable : s.Reachable) : s.signals.WellFormed Signal.handle := by
  induction reachable with
  | opened opened =>
    rw [openConfig_eq_ok opened]
    exact Directory.wellFormed_empty
  | rehost _ _ wf => exact wf
  | step before step wf => exact (step.signals before.wellFormed).wellFormed wf

theorem Hosted.signals (hosted : s.Hosted) : s.signals.WellFormed Signal.handle :=
  hosted.reachable.signals

end Session

end Accelerator
