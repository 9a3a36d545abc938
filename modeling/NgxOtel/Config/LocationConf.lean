import NgxOtel.Lib.Word

/-!
# The configuration of a location

`LocationConf` of `metric_source/location_conf.rs`: what the directives of a location leave for the
handlers of its requests.

* `LocationConf.traceContext` — the propagation mode, with its default.
* `LocationConf.merge` — what a location takes over from the block around it.
-/

set_option autoImplicit false

namespace NgxOtel.Config

open Word

inductive LogExportMode where
  | unset
  | off
  | all
  | if_
  deriving DecidableEq, Repr

inductive TraceContextMode where
  | ignore
  | extract
  | inject
  | propagate
  deriving DecidableEq, Repr

/-- A complex value is known by its text. -/
structure LocationConf where
  otelTrace : Option Bytes
  /-- `trace_context_raw`; `0xFF` is `none` -/
  traceContextRaw : Option TraceContextMode
  spanNameCv : Option Bytes
  spanAttrs : List (Bytes × Bytes)
  logExportRaw : LogExportMode
  logExportCv : Option Bytes
  deriving DecidableEq

namespace LocationConf

/-- `LocationConf::default`. -/
def initial : LocationConf := ⟨none, none, none, [], .unset, none⟩

/-- `trace_context()`. -/
def traceContext (lc : LocationConf) : TraceContextMode := lc.traceContextRaw.getD .extract

/-- `Merge for LocationConf`. -/
def merge (lc prev : LocationConf) : LocationConf :=
  let lc := if lc.otelTrace = none then { lc with otelTrace := prev.otelTrace } else lc
  let lc := if lc.traceContextRaw = none then { lc with traceContextRaw := prev.traceContextRaw }
    else lc
  let lc := if lc.spanNameCv = none then { lc with spanNameCv := prev.spanNameCv } else lc
  if lc.logExportRaw = .unset then
    { lc with logExportRaw := prev.logExportRaw, logExportCv := prev.logExportCv }
  else lc

end LocationConf

end NgxOtel.Config
