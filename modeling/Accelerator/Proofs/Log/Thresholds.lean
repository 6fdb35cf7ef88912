import Accelerator.Log.Performance
import Mathlib.Data.List.Induction

/-!
# Thresholds of measured spans

What a program logs of its performance: it sets the switch as often as it likes, and in between its
spans end and it records events. A span that ends looks at its own threshold, and else at the one
that was set last, of which the switch keeps a word.

The largest word stands for "no threshold", but it can be set as a threshold like any other word. So
the switch keeps all of a setting but a threshold as large as that, while a span keeps whatever
threshold it has of its own.

## Where the two readings part

What the switch keeps of a setting is a setting again. So what is logged is compared with what is
due by comparing two settings, and the difference is one threshold. The condition that is left,
`Escapes`, has four parts, and each is needed: a span with a threshold of its own is not affected,
nor is one that is long enough, nor is anything while events are off.

## Main definitions

* `Performance.Act`, `Performance.run`: what a program does, and what it has logged.
* `Performance.lastSetting`: the setting made last.
* `Performance.Setting.IsDue`: a span lasted long enough to be logged.
* `Performance.Setting.Escapes`: a span is logged although it did not.

## Main results

* `Performance.switch_run`: the switch is that of the last setting.
* `Performance.logs_spans`: what the end of a span adds to the log.
-/

namespace Accelerator

namespace Performance

/-! ### Settings and runs -/

/-- What the switch is set to. -/
structure Setting where
  enabled : Bool
  /-- The common threshold of spans, if there is to be one. -/
  threshold : Option UInt64

namespace Setting

/-- Events are on at first, and there is no common threshold. -/
def initial : Setting := ⟨true, none⟩

/-- The switch that is set to this. -/
def switch (setting : Setting) : Switch :=
  .configure setting.enabled setting.threshold

end Setting

/-- What a program does about its performance. -/
inductive Act where
  /-- The switch is set. -/
  | configure (setting : Setting)
  /-- A span ends that lasted so many microseconds. -/
  | close (span : Span) (elapsedUs : UInt64)
  /-- An event is recorded. -/
  | record (event : Event)

namespace Act

/-- The setting that is made. -/
def setting? : Act → Option Setting
  | configure setting => some setting
  | close .. | record _ => none

/-- The switch after an act. -/
def switch (s : Switch) : Act → Switch
  | configure setting => setting.switch
  | close .. | record _ => s

/-- What is logged of an act. -/
def events (s : Switch) : Act → List Event
  | configure _ => []
  | close span elapsedUs => span.close s elapsedUs
  | record event => s.emit event

/-- An act, with what was logged before it and the switch. -/
def step (state : List Event × Switch) (act : Act) : List Event × Switch :=
  (state.1 ++ act.events state.2, act.switch state.2)

end Act

/-- What was logged of all acts of a program, and the switch afterwards. -/
def run (acts : List Act) : List Event × Switch :=
  acts.foldl Act.step ([], Setting.initial.switch)

/-- The setting made last, or the one at first. -/
def lastSetting (acts : List Act) : Setting :=
  (acts.filterMap Act.setting?).getLastD .initial

theorem run_concat (acts : List Act) (act : Act) : run (acts ++ [act]) = act.step (run acts) := by
  rw [run, List.foldl_append]
  rfl

theorem lastSetting_concat (acts : List Act) (act : Act) :
    lastSetting (acts ++ [act]) = act.setting?.getD (lastSetting acts) := by
  cases act <;> simp [lastSetting, Act.setting?, List.getLastD_eq_getLast?]

/-- The switch is that of the last setting, whatever else was done since. -/
theorem switch_run (acts : List Act) : (run acts).2 = (lastSetting acts).switch := by
  induction acts using List.reverseRecOn with
  | nil => rfl
  | append_singleton acts act ih =>
    rw [run_concat, lastSetting_concat]
    cases act with
    | configure setting => rfl
    | close | record => exact ih

/-! ### Spans -/

/-- The event at the end of a span. -/
def Span.closing (span : Span) (elapsedUs : UInt64) : Event :=
  ⟨"perf_span_closed", [("elapsed_us", .count elapsedUs)],
    some (("name", .text span.name) :: span.details)⟩

namespace Setting

variable {setting : Setting} {span : Span} {elapsedUs : UInt64}

/-- Events are on, and the span lasted at least as long as its own threshold, or the common one if
it has none of its own. -/
def IsDue (setting : Setting) (span : Span) (elapsedUs : UInt64) : Prop :=
  setting.enabled = true ∧ ∀ threshold ∈ span.threshold.or setting.threshold, threshold ≤ elapsedUs

theorem isDue_iff_all : setting.enabled = true ∧
    (span.threshold.or setting.threshold).all (· ≤ elapsedUs) = true ↔
      setting.IsDue span elapsedUs := by
  simp only [IsDue, Option.all_eq_true, decide_eq_true_eq, Option.mem_def]

instance : Decidable (setting.IsDue span elapsedUs) :=
  decidable_of_iff _ isDue_iff_all

/-- Events are on, the span has no threshold of its own and is shorter than the common one, and that
is the largest word. -/
structure Escapes (setting : Setting) (span : Span) (elapsedUs : UInt64) : Prop where
  enabled : setting.enabled = true
  own : span.threshold = none
  common : setting.threshold = some noThreshold
  short : elapsedUs < noThreshold

theorem Escapes.not_isDue (escapes : setting.Escapes span elapsedUs) :
    ¬ setting.IsDue span elapsedUs := by
  rintro ⟨-, reached⟩
  rw [escapes.own, escapes.common] at reached
  exact UInt64.not_le.mpr escapes.short (reached noThreshold rfl)

/-- What the switch keeps of a setting: all but a threshold that is the largest word. -/
def kept (setting : Setting) : Setting :=
  { setting with threshold := setting.threshold.filter (· ≠ noThreshold) }

theorem commonThreshold_switch (setting : Setting) :
    setting.switch.commonThreshold = setting.kept.threshold := by
  obtain ⟨enabled, threshold⟩ := setting
  rw [switch, Switch.configure, Switch.commonThreshold, kept]
  cases threshold with
  | none => rfl
  | some threshold =>
    by_cases largest : threshold = noThreshold <;> simp [largest, Option.filter]

theorem isLogged_switch :
    span.isLogged setting.switch elapsedUs = true ↔ setting.kept.IsDue span elapsedUs := by
  rw [Span.isLogged, commonThreshold_switch, Bool.and_eq_true, IsDue]
  refine and_congr_right fun _ => ?_
  cases span.threshold.or setting.kept.threshold <;> simp

theorem isDue_some {threshold : UInt64}
    (effective : span.threshold.or setting.threshold = some threshold) :
    setting.IsDue span elapsedUs ↔ setting.enabled = true ∧ threshold ≤ elapsedUs := by
  simp [IsDue, effective]

theorem isDue_none (free : span.threshold.or setting.threshold = none) :
    setting.IsDue span elapsedUs ↔ setting.enabled = true := by
  simp [IsDue, free]

/-- By what the switch keeps, a span is due if it is, or if it escapes its threshold. -/
theorem isDue_kept : setting.kept.IsDue span elapsedUs ↔
    setting.IsDue span elapsedUs ∨ setting.Escapes span elapsedUs := by
  -- only then is there a threshold that counts and is not kept
  by_cases forgotten : span.threshold = none ∧ setting.threshold = some noThreshold
  case pos =>
    obtain ⟨own, common⟩ := forgotten
    have free : span.threshold.or setting.kept.threshold = none := by
      simp [own, kept, common, Option.filter]
    have largest : span.threshold.or setting.threshold = some noThreshold := by simp [own, common]
    rw [isDue_none free, isDue_some largest]
    constructor
    · intro enabled
      rcases UInt64.lt_or_le elapsedUs noThreshold with short | long
      · exact .inr ⟨enabled, own, common, short⟩
      · exact .inl ⟨enabled, long⟩
    · rintro (⟨enabled, -⟩ | escapes)
      · exact enabled
      · exact escapes.enabled
  case neg =>
    have same : span.threshold.or setting.kept.threshold =
        span.threshold.or setting.threshold := by
      cases own : span.threshold with
      | some threshold => rfl
      | none =>
        cases common : setting.threshold with
        | none => simp [kept, common]
        | some threshold =>
          have other : threshold ≠ noThreshold := fun largest => forgotten ⟨own, largest ▸ common⟩
          simp [kept, common, other, Option.filter]
    rw [or_iff_left fun escapes => forgotten ⟨escapes.own, escapes.common⟩, IsDue, same]
    rfl

end Setting

/-- What the end of a span adds to the log, after whatever settings and other acts. -/
theorem logs_spans (acts : List Act) (span : Span) (elapsedUs : UInt64) :
    (¬ (lastSetting acts).Escapes span elapsedUs →
      (run (acts ++ [.close span elapsedUs])).1 = (run acts).1 ++
        if (lastSetting acts).IsDue span elapsedUs then [span.closing elapsedUs] else []) ∧
    ((lastSetting acts).Escapes span elapsedUs →
      ¬ (lastSetting acts).IsDue span elapsedUs ∧
      (run (acts ++ [.close span elapsedUs])).1 = (run acts).1 ++ [span.closing elapsedUs]) := by
  have logged : (run (acts ++ [.close span elapsedUs])).1 = (run acts).1 ++
      if (lastSetting acts).kept.IsDue span elapsedUs then [span.closing elapsedUs] else [] := by
    rw [run_concat, Act.step, Act.events, switch_run, Span.close]
    simp only [Setting.isLogged_switch]
    rfl
  refine ⟨fun bound => ?_, fun escapes => ⟨escapes.not_isDue, ?_⟩⟩
  · simp only [logged, Setting.isDue_kept, or_iff_left bound]
  · rw [logged, if_pos (Setting.isDue_kept.mpr (.inr escapes))]

/-- A span without a threshold of its own, below and at a common one of 500 microseconds. -/
theorem logs_spans_inherited :
    (run [.configure ⟨true, some 500⟩, .close ⟨"a", none, []⟩ 100]).1 = [] ∧
    (run [.configure ⟨true, some 500⟩, .close ⟨"a", none, []⟩ 500]).1 =
      [Span.closing ⟨"a", none, []⟩ 500] := by
  have bound (elapsedUs : UInt64) :
      ¬ (⟨true, some 500⟩ : Setting).Escapes ⟨"a", none, []⟩ elapsedUs := fun escapes =>
    absurd escapes.common (by decide)
  have below := (logs_spans [.configure ⟨true, some 500⟩] ⟨"a", none, []⟩ 100).1 (bound 100)
  have reached := (logs_spans [.configure ⟨true, some 500⟩] ⟨"a", none, []⟩ 500).1 (bound 500)
  rw [if_neg (by decide)] at below
  rw [if_pos (by decide)] at reached
  exact ⟨below, reached⟩

/-- The largest threshold keeps a span from being logged that has it as its own, but not one that
has no threshold of its own. -/
theorem forgets_largest_threshold :
    ¬ (⟨true, some noThreshold⟩ : Setting).IsDue ⟨"inherits", none, []⟩ 0 ∧
    (run [.configure ⟨true, some noThreshold⟩, .close ⟨"own", some noThreshold, []⟩ 0,
      .close ⟨"inherits", none, []⟩ 0]).1 = [Span.closing ⟨"inherits", none, []⟩ 0] :=
  ⟨by decide, rfl⟩

end Performance

end Accelerator
