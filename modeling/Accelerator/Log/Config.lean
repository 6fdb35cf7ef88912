import Accelerator.Enumerated
import Accelerator.Text.Blank
import Accelerator.Text.Numeral
import Accelerator.Text.Quoted

/-!
# Log settings

How log events are filtered and written. Settings start from a named profile, and environment
variables replace single ones; a variable whose value cannot be read is passed over.

## Main definitions

* `Log.Profile`, `Log.Format`: named starting points, and the forms of a log line.
* `Log.Config`, `Log.Config.ofProfile`, `Log.Config.ofEnvironment`: the settings.
* `Log.Config.check`: settings whose filter cannot be used are refused. What form a filter has is up
  to whoever applies it, so that is a parameter.
-/

namespace Accelerator

namespace Log

/-! ### Profiles and formats -/

/-- Why settings are refused. -/
inductive Fault where
  | invalidFilter
  | unknownProfile (name : String)
  | unknownFormat (name : String)
  deriving DecidableEq, Repr, Inhabited

/-- The name of a fault. -/
def Fault.name : Fault → String
  | invalidFilter => "InvalidFilter"
  | unknownProfile _ => "UnknownProfile"
  | unknownFormat _ => "UnknownFormat"

/-- The sentence that tells of a fault; a filter that cannot be used is not described further. -/
def Fault.message : Fault → String
  | invalidFilter => "invalid log filter"
  | unknownProfile name => "unknown log profile " ++ Text.quoted name
  | unknownFormat name => "unknown log format " ++ Text.quoted name

/-- A named starting point for settings. -/
inductive Profile where
  /-- Coloured lines for a person. -/
  | terminal
  /-- JSON lines for a collector. -/
  | collector
  /-- JSON lines with the ends of spans and with details. -/
  | profiling
  deriving DecidableEq, Repr, Inhabited

instance : Enumerated Profile where
  members := [.terminal, .collector, .profiling]
  name
    | .terminal => "Terminal"
    | .collector => "Collector"
    | .profiling => "Profiling"
  mem_members a := by cases a <;> decide
  name_injective a b := by cases a <;> cases b <;> decide

/-- The form of a log line. -/
inductive Format where
  | compact
  | pretty
  | json
  deriving DecidableEq, Repr, Inhabited

instance : Enumerated Format where
  members := [.compact, .pretty, .json]
  name
    | .compact => "Compact"
    | .pretty => "Pretty"
    | .json => "Json"
  mem_members a := by cases a <;> decide
  name_injective a b := by cases a <;> cases b <;> decide

/-- A name as it is compared: without blanks around it, and without regard to case. -/
def normalName (s : String) : String :=
  Text.lowerAscii (Text.trimmed s)

/-- The profile with a name; each has two. -/
def Profile.ofText (s : String) : Except Fault Profile :=
  let name := normalName s
  if name = "terminal" ∨ name = "local" then .ok terminal
  else if name = "collector" ∨ name = "ci" then .ok collector
  else if name = "profiling" ∨ name = "perf" then .ok profiling
  else .error (.unknownProfile s)

/-- The format with a name. -/
def Format.ofText (s : String) : Except Fault Format :=
  let name := normalName s
  if name = "compact" then .ok compact
  else if name = "pretty" then .ok pretty
  else if name = "json" then .ok json
  else .error (.unknownFormat s)

/-! ### Settings -/

/-- How log events are filtered and written. -/
structure Config where
  /-- The filter asked for. -/
  filter : Option String
  /-- The filter used when none is asked for. -/
  fallback : String
  format : Format
  targets : Bool
  ansi : Bool
  /-- The end of a span is an event of its own. -/
  spanEnds : Bool
  perfSpans : Bool
  perfThresholdUs : Option UInt64
  deriving DecidableEq, Repr, Inhabited

namespace Config

/-- The filter of the profiling profile. -/
def detailFilter : String := "aql_runtime=debug,aql_core=debug,info"

/-- The settings of a profile. -/
def ofProfile (profile : Profile) : Config :=
  let terminal : Config :=
    { filter := none, fallback := "info", format := .pretty, targets := true, ansi := true,
      spanEnds := false, perfSpans := true, perfThresholdUs := none }
  match profile with
  | .terminal => terminal
  | .collector => { terminal with format := .json, ansi := false, perfSpans := false }
  | .profiling =>
    { terminal with
      filter := some detailFilter, format := .json, ansi := false, spanEnds := true }

/-- The settings used when nothing else is asked for. -/
def default : Config :=
  ofProfile .terminal

/-- The value of a variable says yes. -/
def isYes (s : String) : Bool :=
  ["1", "true", "yes", "on"].contains (normalName s)

/-- The settings that environment variables ask for; `lookup` gives the values of variables that
are set. -/
def ofEnvironment (lookup : String → Option String) : Config :=
  let profile := (lookup "AQL_LOG_PROFILE").bind fun s => (Profile.ofText s).toOption
  let config := ofProfile (profile.getD .terminal)
  let filter := (lookup "AQL_LOG").filter fun s => !(Text.trimmed s).isEmpty
  let format := (lookup "AQL_LOG_FORMAT").bind fun s => (Format.ofText s).toOption
  let threshold := (lookup "AQL_PERF_THRESHOLD_US").bind fun s =>
    Numeral.read? 10 (UInt64.size - 1) (Text.trim s.toList)
  { config with
    filter := filter.or config.filter
    format := format.getD config.format
    perfSpans := (lookup "AQL_PERF_TRACING").elim config.perfSpans isYes
    perfThresholdUs := (threshold.map .ofNat).or config.perfThresholdUs }

/-- The settings can be used: their filter is one, as whoever applies filters reads it. -/
def check (isFilter : String → Bool) (c : Config) : Except Fault Unit :=
  match c.filter with
  | none => .ok ()
  | some filter => if isFilter filter then .ok () else .error .invalidFilter

end Config

end Log

end Accelerator
