/-!
# Performance events

Spans measure how long something took and tell of it at their end, if performance events are
switched on and the span lasted at least as long as its threshold. Three more events tell of
finished dispatches, allocations and copies, with the rate at which they went.

## Main definitions

* `Performance.Switch`, `Performance.Switch.configure`: whether events are on, and the threshold
  of spans without one of their own.
* `Performance.Span`, `Performance.Span.isLogged`, `Performance.Span.close`: measured spans.
* `Performance.dispatch`, `Performance.allocation`, `Performance.copy`: the events.

## Implementation notes

The common threshold is one word, and the largest word stands for "no threshold".
-/

namespace Accelerator

namespace Performance

/-! ### Events -/

/-- The value of an event's field. -/
inductive Field where
  | text (value : String)
  | count (value : UInt64)
  | rate (value : Float)
  deriving Repr, Inhabited

/-- Names with values, in order. -/
abbrev Fields := List (String × Field)

/-- A log event. -/
structure Event where
  message : String
  fields : Fields
  /-- The span that the event belongs to, by its fields. -/
  span : Option Fields
  deriving Repr, Inhabited

/-! ### Switches -/

/-- The word that stands for "no threshold". -/
def noThreshold : UInt64 := .ofNat (UInt64.size - 1)

/-- Whether performance events are on, and the common threshold of spans. -/
structure Switch where
  enabled : Bool
  threshold : UInt64
  deriving DecidableEq, Repr, Inhabited

namespace Switch

/-- The switch with the given settings. -/
def configure (enabled : Bool) (threshold : Option UInt64) : Switch :=
  ⟨enabled, threshold.getD noThreshold⟩

/-- The common threshold, if there is one. -/
def commonThreshold (s : Switch) : Option UInt64 :=
  if s.threshold = noThreshold then none else some s.threshold

/-- The event, if events are on. -/
def emit (s : Switch) (event : Event) : List Event :=
  if s.enabled then [event] else []

end Switch

/-! ### Spans -/

/-- A measured span. -/
structure Span where
  name : String
  /-- The span's own threshold, which goes before the common one. -/
  threshold : Option UInt64
  /-- What else is known of the span. -/
  details : Fields
  deriving Repr, Inhabited

namespace Span

/-- A span that lasted so many microseconds is logged. -/
def isLogged (span : Span) (s : Switch) (elapsedUs : UInt64) : Bool :=
  s.enabled &&
    match span.threshold.or s.commonThreshold with
    | some threshold => threshold ≤ elapsedUs
    | none => true

/-- The events at the end of a span. -/
def close (span : Span) (s : Switch) (elapsedUs : UInt64) : List Event :=
  if span.isLogged s elapsedUs then
    [⟨"perf_span_closed", [("elapsed_us", .count elapsedUs)],
      some (("name", .text span.name) :: span.details)⟩]
  else []

end Span

/-! ### Finished work -/

/-- How much was done in a second, given the microseconds it took; 0 if it took none. -/
def rate (amount : Float) (durationUs : UInt64) : Float :=
  if durationUs = 0 then 0 else amount * 1000000 / durationUs.toFloat

/-- A kernel dispatch has finished. -/
def dispatch (kernelObject workgroups workItems durationUs : UInt64) : Event where
  message := "kernel_dispatch"
  fields :=
    [("kernel_object", .count kernelObject), ("workgroups", .count workgroups),
      ("work_items", .count workItems), ("duration_us", .count durationUs),
      ("items_per_sec", .rate (rate workItems.toFloat durationUs))]
  span := none

/-- Memory has been handed out by a region. -/
def allocation (region : String) (size alignment durationUs : UInt64) : Event where
  message := "region_allocation"
  fields :=
    [("region", .text region), ("size_bytes", .count size), ("alignment", .count alignment),
      ("duration_us", .count durationUs)]
  span := none

/-- Memory has been copied. -/
def copy (bytes durationUs : UInt64) : Event where
  message := "memory_copy"
  fields :=
    [("bytes", .count bytes), ("duration_us", .count durationUs),
      ("mib_per_sec", .rate (rate bytes.toFloat durationUs / (1024 * 1024)))]
  span := none

end Performance

end Accelerator
