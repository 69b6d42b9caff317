/-!
# Telemetry settings

How a controller process reports about itself: under which name, to which collector, in which
format, and which log entries it keeps. Starting telemetry can fail on three grounds; a collector
address that is no address is noticed before the log subscriber is installed, and a process has room
for one log subscriber only.
-/

namespace Reconciler.Telemetry

/-- Format of log lines. -/
inductive Format where
  /-- One JSON object per line. -/
  | json
  /-- For people. -/
  | pretty
deriving DecidableEq, Inhabited, Repr

/-- How a process reports about itself. -/
structure Settings where
  /-- Name of the service. -/
  service : String := "operon"
  /-- Address of the collector, if there is one. -/
  endpoint : Option String := none
  /-- Format of log lines. -/
  format : Format := .json
  /-- Which log entries are kept unless the environment says otherwise. -/
  filter : String := "info,operon=debug,kube=info,tower=warn,hyper=warn"
deriving DecidableEq, Inhabited, Repr

/-- Settings of a service, with the collector that the environment names. -/
def Settings.forService (service : Option String) (endpoint : Option String) : Settings :=
  match service with
  | some s => { service := s, endpoint := endpoint }
  | none => { endpoint := endpoint }

/-- Why telemetry did not start. -/
inductive StartError where
  /-- The exporter of spans. -/
  | tracer (detail : String)
  /-- The exporter of metrics. -/
  | metrics (detail : String)
  /-- The log subscriber. -/
  | subscriber (detail : String)
deriving DecidableEq, Repr

/-- Wording of an error. -/
def StartError.message : StartError → String
  | .tracer d => "failed to initialize tracer: " ++ d
  | .metrics d => "failed to initialize metrics exporter: " ++ d
  | .subscriber d => "failed to initialize tracing subscriber: " ++ d

/-- An address can be dialled: it holds no blank. -/
def isDialable (endpoint : String) : Bool := !endpoint.toList.contains ' '

/-- Start telemetry in a process that has a log subscriber or has none. The metrics exporter is the
first to look at the address. -/
def Settings.start (s : Settings) (hasSubscriber : Bool) : Except StartError Unit :=
  if !s.endpoint.all isDialable then .error (.metrics "invalid address")
  else if hasSubscriber then .error (.subscriber "a subscriber is already installed")
  else .ok ()

end Reconciler.Telemetry
