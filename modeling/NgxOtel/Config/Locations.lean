import NgxOtel.Config.LocationConf

/-!
# The settings of a location

`otel_trace`, `otel_trace_context`, `otel_span_name`, `otel_span_attr` and `otel_log_export` may
stand in the `http` block, in a server and in locations of any depth.  While the text is read each
block gets a `LocationConf` of its own (`config/directives.rs`); afterwards nginx merges the blocks
from the outside inwards (`metric_source/location_conf.rs`), and a request sees the result of the
block it was matched to.

* `cmdSetOtelTrace`, …, `cmdSetOtelLogExport` — the handlers of the directives, with their errors.
* `Items` — the text of a block: directives and nested blocks, in order.
* `parseItems`, `mergeNodes`, `configure` — reading, merging, and both.
* `checkExportSelected` — whether the access record of a request is exported.
* `Settings` — what a block says, apart from how it is stored; `Settings.conf` stores it.
* `nearest`, `settingsAt` — the meaning of the text: for each setting the innermost block that has
  the directive decides, and span attributes are those of the block itself.

## Results

* `set_conf`, `parseItems_ok_iff` — what one directive and what a block does, errors included.
* `mergeNodes_nodes` — **merging from the outside inwards finds the innermost directive**.
* `configure_ok_iff` — what is accepted (values that can be used, and no setting twice in a block),
  and what every block gets.
* `location_settings` — **requests do what the text says** about tracing and export; the flag in the
  main configuration, for which the shared memory is allocated, never hides a selection.
-/

set_option autoImplicit false

namespace NgxOtel.Config.Locations

open Word

/-! ## The handlers -/

inductive ConfError where
  | duplicate
  | otelTrace
  | otelSpanName
  | otelLogExportIf
  | otelLogExport
  | otelTraceContext (value : Bytes)
  deriving DecidableEq, Repr

def ON : Bytes := [0x6f, 0x6e]
def OFF : Bytes := [0x6f, 0x66, 0x66]
def IF : Bytes := [0x69, 0x66, 0x3d]
def IGNORE : Bytes := [0x69, 0x67, 0x6e, 0x6f, 0x72, 0x65]
def EXTRACT : Bytes := [0x65, 0x78, 0x74, 0x72, 0x61, 0x63, 0x74]
def INJECT : Bytes := [0x69, 0x6e, 0x6a, 0x65, 0x63, 0x74]
def PROPAGATE : Bytes := [0x70, 0x72, 0x6f, 0x70, 0x61, 0x67, 0x61, 0x74, 0x65]

/-- The messages, where `lossy` shows a value; nginx puts the name of the directive before
`is duplicate`. -/
def ConfError.text (lossy : Bytes → String) : ConfError → String
  | .duplicate => "is duplicate"
  | .otelTrace => "otel_trace: failed to compile complex value expression"
  | .otelSpanName => "otel_span_name: failed to compile complex value expression"
  | .otelLogExportIf => "otel_log_export: failed to compile \"if=\" condition"
  | .otelLogExport => "otel_log_export: invalid parameter; expected on | off | if=<cond>"
  | .otelTraceContext value =>
    "otel_trace_context: unknown value \"" ++ lossy value ++
      "\"; valid: ignore, extract, inject, propagate"

section Handlers

-- whether `compile_complex_value` succeeds
variable (compiles : Bytes → Bool)

/-- A setting that is a complex value. -/
def setComplexValue (current : Option Bytes) (value : Bytes) (failed : ConfError) :
    Except ConfError Bytes :=
  if current ≠ none then .error .duplicate
  else if compiles value then .ok value
  else .error failed

def cmdSetOtelTrace (lcf : LocationConf) (value : Bytes) : Except ConfError LocationConf :=
  (setComplexValue compiles lcf.otelTrace value .otelTrace).map fun cv =>
    { lcf with otelTrace := some cv }

def cmdSetOtelSpanName (lcf : LocationConf) (value : Bytes) : Except ConfError LocationConf :=
  (setComplexValue compiles lcf.spanNameCv value .otelSpanName).map fun cv =>
    { lcf with spanNameCv := some cv }

def traceContextOf (value : Bytes) : Option TraceContextMode :=
  if value = IGNORE then some .ignore
  else if value = EXTRACT then some .extract
  else if value = INJECT then some .inject
  else if value = PROPAGATE then some .propagate
  else none

def cmdSetOtelTraceContext (lcf : LocationConf) (value : Bytes) : Except ConfError LocationConf :=
  if lcf.traceContextRaw ≠ none then .error .duplicate
  else match traceContextOf value with
    | some mode => .ok { lcf with traceContextRaw := some mode }
    | none => .error (.otelTraceContext value)

def cmdAddOtelSpanAttr (lcf : LocationConf) (key value : Bytes) : LocationConf :=
  { lcf with spanAttrs := lcf.spanAttrs ++ [(key, value)] }

/-- `cmd_set_otel_log_export`; without an argument it is `on`.  The second result is `true` if
`any_log_export` of the main configuration is set. -/
def cmdSetOtelLogExport (lcf : LocationConf) (param : Option Bytes) :
    Except ConfError (LocationConf × Bool) :=
  if lcf.logExportRaw ≠ .unset then .error .duplicate
  else match param with
    | none => .ok ({ lcf with logExportRaw := .all }, true)
    | some param =>
      if param = ON then .ok ({ lcf with logExportRaw := .all }, true)
      else if param = OFF then .ok ({ lcf with logExportRaw := .off }, false)
      else if 3 ≤ param.length ∧ param.take 3 = IF then
        let cond := param.drop 3
        if compiles cond then
          .ok ({ lcf with logExportCv := some cond, logExportRaw := .if_ }, true)
        else .error .otelLogExportIf
      else .error .otelLogExport

/-- A directive with its arguments. -/
inductive Directive where
  | otelTrace (value : Bytes)
  | otelTraceContext (value : Bytes)
  | otelSpanName (value : Bytes)
  | otelSpanAttr (key value : Bytes)
  | otelLogExport (param : Option Bytes)
  deriving DecidableEq, Repr

def Directive.set (lcf : LocationConf) : Directive → Except ConfError (LocationConf × Bool)
  | .otelTrace value => (cmdSetOtelTrace compiles lcf value).map (·, false)
  | .otelTraceContext value => (cmdSetOtelTraceContext lcf value).map (·, false)
  | .otelSpanName value => (cmdSetOtelSpanName compiles lcf value).map (·, false)
  | .otelSpanAttr key value => .ok (cmdAddOtelSpanAttr lcf key value, false)
  | .otelLogExport param => cmdSetOtelLogExport compiles lcf param

end Handlers

/-! ## Reading and merging -/

/-- The text of a block. -/
inductive Items where
  | done
  | directive (d : Directive) (rest : Items)
  | block (inner rest : Items)
  deriving Repr

/-- The configurations of nested blocks, in the order of the text. -/
inductive Nodes where
  | none
  | node (conf : LocationConf) (children rest : Nodes)

/-- The configuration of a block, those of the blocks in it, and `any_log_export`. -/
structure Parsed where
  conf : LocationConf
  children : Nodes
  anyLogExport : Bool

/-- Reading a block into `lcf`; a nested block starts with a configuration of its own. -/
def parseItems (compiles : Bytes → Bool) : Items → LocationConf → Except ConfError Parsed
  | .done, lcf => .ok ⟨lcf, .none, false⟩
  | .directive d rest, lcf => do
    let (lcf, selects) ← d.set compiles lcf
    let out ← parseItems compiles rest lcf
    return { out with anyLogExport := selects || out.anyLogExport }
  | .block inner rest, lcf => do
    let sub ← parseItems compiles inner .initial
    let out ← parseItems compiles rest lcf
    return ⟨out.conf, .node sub.conf sub.children out.children,
      sub.anyLogExport || out.anyLogExport⟩

/-- nginx merges a block with its merged parent, and then the blocks in it.  The result lists the
blocks in the order of the text. -/
def mergeNodes (prev : LocationConf) : Nodes → List LocationConf
  | .none => []
  | .node conf children rest =>
    let conf := conf.merge prev
    conf :: mergeNodes conf children ++ mergeNodes prev rest

/-- What requests see: the flag of the main configuration, and the configuration of the `http` block
and of every block in it. -/
def configure (compiles : Bytes → Bool) (http : Items) :
    Except ConfError (Bool × List LocationConf) := do
  let out ← parseItems compiles http .initial
  return (out.anyLogExport, out.conf :: mergeNodes out.conf out.children)

/-! ## Requests -/

def isTruthy (bytes : Bytes) : Bool :=
  !(bytes.isEmpty || (bytes.length = 1 && bytes[0]? = some 0x30))

/-- `eval_export_truthy`; `eval` is `ngx_http_complex_value` for the request. -/
def evalExportTruthy (eval : Bytes → Option Bytes) (cv : Bytes) : Bool :=
  match eval cv with
  | some bytes => isTruthy bytes
  | none => false

/-- `check_export_selected`.  A null pointer in the mode `If` would be followed: `none`. -/
def checkExportSelected (eval : Bytes → Option Bytes) (anyLogExport : Bool) (lc : LocationConf) :
    Option Bool :=
  if ¬ anyLogExport then some false
  else match lc.logExportRaw with
    | .all => some true
    | .if_ => lc.logExportCv.map (evalExportTruthy eval)
    | .off | .unset => some false

/-! ## The meaning of the text -/

inductive LogExport where
  | off
  | all
  | cond (c : Bytes)
  deriving DecidableEq, Repr

/-- The bytes of a text without other characters than those of ASCII. -/
def ascii (text : String) : Bytes := text.toList.map fun c => UInt8.ofNat c.toNat

/-- What an argument of `otel_trace_context` says. -/
def contextNames : List (Bytes × TraceContextMode) :=
  [(ascii "ignore", .ignore), (ascii "extract", .extract), (ascii "inject", .inject),
    (ascii "propagate", .propagate)]

/-- What a parameter of `otel_log_export` says. -/
def logExportOf : Option Bytes → Option LogExport
  | none => some .all
  | some param =>
    if param = ON then some .all
    else if param = OFF then some .off
    else if 3 ≤ param.length ∧ param.take 3 = IF then some (.cond (param.drop 3))
    else none

namespace Directive

@[simp]
def trace? : Directive → Option Bytes
  | .otelTrace value => some value
  | _ => none

@[simp]
def context? : Directive → Option TraceContextMode
  | .otelTraceContext value => contextNames.lookup value
  | _ => none

@[simp]
def spanName? : Directive → Option Bytes
  | .otelSpanName value => some value
  | _ => none

@[simp]
def attr? : Directive → Option (Bytes × Bytes)
  | .otelSpanAttr key value => some (key, value)
  | _ => none

@[simp]
def export? : Directive → Option LogExport
  | .otelLogExport param => logExportOf param
  | _ => none

end Directive

/-- The directives of a block itself. -/
def Items.own : Items → List Directive
  | .done => []
  | .directive d rest => d :: rest.own
  | .block _ rest => rest.own

/-- For each nested block its directives, followed by those of the blocks around it. -/
def Items.nested (outer : List (List Directive)) : Items → List (List (List Directive))
  | .done => []
  | .directive _ rest => rest.nested outer
  | .block inner rest =>
    (inner.own :: outer) :: inner.nested (inner.own :: outer) ++ rest.nested outer

/-- The `http` block and every block in it, each with the blocks around it. -/
def Items.scopes (http : Items) : List (List (List Directive)) :=
  [http.own] :: http.nested [http.own]

/-- The innermost block that has a directive of this kind decides. -/
def nearest {α : Type} (f : Directive → Option α) (scope : List (List Directive)) : Option α :=
  scope.findSome? fun ds => ds.findSome? f

/-- What a block says, apart from how it is stored. -/
@[ext]
structure Settings where
  trace : Option Bytes
  context : Option TraceContextMode
  spanName : Option Bytes
  attrs : List (Bytes × Bytes)
  logExport : Option LogExport

/-- The settings that hold in a block. -/
def settingsAt (scope : List (List Directive)) : Settings where
  trace := nearest Directive.trace? scope
  context := nearest Directive.context? scope
  spanName := nearest Directive.spanName? scope
  attrs := (scope.headD []).filterMap Directive.attr?
  logExport := nearest Directive.export? scope

/-- Whether a request is exported. -/
def LogExport.selects (eval : Bytes → Option Bytes) : Option LogExport → Bool
  | some .all => true
  | some (.cond c) => evalExportTruthy eval c
  | some .off | none => false

/-! ## Storage -/

def LogExport.mode : LogExport → LogExportMode
  | .off => .off
  | .all => .all
  | .cond _ => .if_

def LogExport.cond? : LogExport → Option Bytes
  | .cond c => some c
  | .off | .all => none

namespace Settings

/-- How the settings are stored. -/
def conf (σ : Settings) : LocationConf where
  otelTrace := σ.trace
  traceContextRaw := σ.context
  spanNameCv := σ.spanName
  spanAttrs := σ.attrs
  logExportRaw := σ.logExport.elim .unset LogExport.mode
  logExportCv := σ.logExport.bind LogExport.cond?

def empty : Settings := ⟨none, none, none, [], none⟩

/-- One more directive. -/
def add (σ : Settings) (d : Directive) : Settings where
  trace := σ.trace.or d.trace?
  context := σ.context.or d.context?
  spanName := σ.spanName.or d.spanName?
  attrs := σ.attrs ++ d.attr?.toList
  logExport := σ.logExport.or d.export?

/-- The settings of a block inside another one. -/
def inherit (σ τ : Settings) : Settings where
  trace := σ.trace.or τ.trace
  context := σ.context.or τ.context
  spanName := σ.spanName.or τ.spanName
  attrs := σ.attrs
  logExport := σ.logExport.or τ.logExport

/-- **Merging two stored blocks stores the inherited settings.** -/
theorem merge_conf (σ τ : Settings) : σ.conf.merge τ.conf = (σ.inherit τ).conf := by
  obtain ⟨trace, context, spanName, attrs, logExport⟩ := σ
  cases trace <;> cases context <;> cases spanName <;>
    rcases logExport with _ | _ | _ | c <;> rfl

end Settings

/-! ## What is accepted -/

/-- The settings that a block can have once. -/
inductive Setting where
  | trace
  | context
  | spanName
  | logExport
  deriving DecidableEq, Repr

namespace Directive

@[simp]
def setting? : Directive → Option Setting
  | .otelTrace _ => some .trace
  | .otelTraceContext _ => some .context
  | .otelSpanName _ => some .spanName
  | .otelSpanAttr _ _ => none
  | .otelLogExport _ => some .logExport

/-- The arguments can be used. -/
def valid (compiles : Bytes → Bool) : Directive → Bool
  | .otelTrace value | .otelSpanName value => compiles value
  | .otelTraceContext value => (contextNames.lookup value).isSome
  | .otelSpanAttr _ _ => true
  | .otelLogExport param =>
    match logExportOf param with
    | some (.cond c) => compiles c
    | some .all | some .off => true
    | none => false

/-- The error for arguments that cannot be used; a span attribute has none. -/
def failure : Directive → ConfError
  | .otelTrace _ => .otelTrace
  | .otelSpanName _ => .otelSpanName
  | .otelTraceContext value => .otelTraceContext value
  | .otelSpanAttr _ _ => .duplicate
  | .otelLogExport param =>
    match logExportOf param with
    | some (.cond _) => .otelLogExportIf
    | _ => .otelLogExport

/-- The directive sets `any_log_export`. -/
def selects (d : Directive) : Bool :=
  match d.export? with
  | some .all | some (.cond _) => true
  | some .off | none => false

end Directive

/-- Every directive of the block can be used, and none of them repeats a setting. -/
structure BlockOk (compiles : Bytes → Bool) (ds : List Directive) : Prop where
  valid : ∀ d ∈ ds, d.valid compiles = true
  nodup : (ds.filterMap Directive.setting?).Nodup

/-- The directives of the blocks in a block, at any depth. -/
def Items.blocks : Items → List (List Directive)
  | .done => []
  | .directive _ rest => rest.blocks
  | .block inner rest => inner.own :: inner.blocks ++ rest.blocks

/-- All directives of a block and of the blocks in it. -/
def Items.directives : Items → List Directive
  | .done => []
  | .directive d rest => d :: rest.directives
  | .block inner rest => inner.directives ++ rest.directives

/-! ## Reading one directive -/

namespace Settings

def holds (σ : Settings) : Setting → Bool
  | .trace => σ.trace.isSome
  | .context => σ.context.isSome
  | .spanName => σ.spanName.isSome
  | .logExport => σ.logExport.isSome

/-- The directive is one of a setting that the block has. -/
def repeats (σ : Settings) (d : Directive) : Bool := d.setting?.any σ.holds

/-- A directive that can be used makes its setting hold. -/
theorem holds_add {compiles : Bytes → Bool} {d : Directive} (h : d.valid compiles = true)
    (σ : Settings) (k : Setting) :
    (σ.add d).holds k = (σ.holds k || decide (d.setting? = some k)) := by
  cases d with
  | otelTrace value | otelSpanName value | otelSpanAttr key value =>
    cases k <;> simp [add, holds]
  | otelTraceContext value =>
    have hmode : (contextNames.lookup value).isSome = true := h
    cases k <;> simp [add, holds, hmode]
  | otelLogExport param =>
    have hexport : (logExportOf param).isSome = true := by
      cases he : logExportOf param with
      | none => simp [Directive.valid, he] at h
      | some e => rfl
    cases k <;> simp [add, holds, hexport]

end Settings

/-- The chain of comparisons in `cmd_set_otel_trace_context` is a look-up among the names. -/
theorem traceContextOf_eq (value : Bytes) : traceContextOf value = contextNames.lookup value := by
  have hnames : contextNames =
      [(IGNORE, .ignore), (EXTRACT, .extract), (INJECT, .inject), (PROPAGATE, .propagate)] := by
    decide
  rw [hnames]
  simp only [traceContextOf, List.lookup_cons, List.lookup_nil]
  grind

/-- `cmd_set_otel_log_export` by what its parameter says. -/
theorem cmdSetOtelLogExport_eq (compiles : Bytes → Bool) (lcf : LocationConf)
    (param : Option Bytes) (hunset : lcf.logExportRaw = .unset) :
    cmdSetOtelLogExport compiles lcf param =
      match logExportOf param with
      | some .all => .ok ({ lcf with logExportRaw := .all }, true)
      | some .off => .ok ({ lcf with logExportRaw := .off }, false)
      | some (.cond c) =>
        if compiles c then .ok ({ lcf with logExportCv := some c, logExportRaw := .if_ }, true)
        else .error .otelLogExportIf
      | none => .error .otelLogExport := by
  unfold cmdSetOtelLogExport logExportOf
  rw [if_neg (not_not.mpr hunset)]
  cases param with
  | none => rfl
  | some param =>
    dsimp only
    by_cases hon : param = ON
    · rw [if_pos hon, if_pos hon]
    · rw [if_neg hon, if_neg hon]
      by_cases hoff : param = OFF
      · rw [if_pos hoff, if_pos hoff]
      · rw [if_neg hoff, if_neg hoff]
        by_cases hif : 3 ≤ param.length ∧ param.take 3 = IF
        · rw [if_pos hif, if_pos hif]
        · rw [if_neg hif, if_neg hif]

/-- **One directive**: a setting of the block is not set again, arguments that cannot be used are
reported, and otherwise the block says what the directive adds. -/
theorem set_conf (compiles : Bytes → Bool) (σ : Settings) (d : Directive) :
    d.set compiles σ.conf =
      if σ.repeats d then .error .duplicate
      else if d.valid compiles then .ok ((σ.add d).conf, d.selects)
      else .error d.failure := by
  obtain ⟨trace, context, spanName, attrs, logExport⟩ := σ
  cases d with
  | otelTrace value =>
    cases trace <;> by_cases hc : compiles value = true <;>
      simp [Directive.set, cmdSetOtelTrace, setComplexValue, Except.map, Settings.repeats,
        Settings.holds, Settings.conf, Settings.add, Directive.valid, Directive.failure,
        Directive.selects, hc]
  | otelSpanName value =>
    cases spanName <;> by_cases hc : compiles value = true <;>
      simp [Directive.set, cmdSetOtelSpanName, setComplexValue, Except.map, Settings.repeats,
        Settings.holds, Settings.conf, Settings.add, Directive.valid, Directive.failure,
        Directive.selects, hc]
  | otelSpanAttr key value =>
    simp [Directive.set, cmdAddOtelSpanAttr, Settings.repeats, Settings.conf, Settings.add,
      Directive.valid, Directive.selects]
  | otelTraceContext value =>
    cases context <;> cases hmode : contextNames.lookup value <;>
      simp [Directive.set, cmdSetOtelTraceContext, traceContextOf_eq, Except.map, Settings.repeats,
        Settings.holds, Settings.conf, Settings.add, Directive.valid, Directive.failure,
        Directive.selects, hmode]
  | otelLogExport param =>
    cases logExport with
    | some e =>
      cases e <;> simp [Directive.set, cmdSetOtelLogExport, Settings.repeats, Settings.holds,
        Settings.conf, LogExport.mode]
    | none =>
      rw [Directive.set, cmdSetOtelLogExport_eq compiles _ param rfl]
      rcases he : logExportOf param with _ | _ | _ | c <;>
        simp [Settings.repeats, Settings.holds, Settings.conf, Settings.add, Directive.valid,
          Directive.failure, Directive.selects, LogExport.mode, LogExport.cond?, he]

theorem set_ok_iff {compiles : Bytes → Bool} {σ : Settings} {d : Directive}
    {out : LocationConf × Bool} :
    d.set compiles σ.conf = .ok out ↔
      σ.repeats d = false ∧ d.valid compiles = true ∧ ((σ.add d).conf, d.selects) = out := by
  rw [set_conf]
  cases σ.repeats d <;> cases d.valid compiles <;> simp

/-! ## Reading a block -/

/-- The directives of a block that has some settings already. -/
structure MoreOk (compiles : Bytes → Bool) (σ : Settings) (ds : List Directive) : Prop
    extends BlockOk compiles ds where
  fresh : ∀ d ∈ ds, σ.repeats d = false

theorem repeats_empty (d : Directive) : Settings.empty.repeats d = false := by
  cases d <;> rfl

theorem moreOk_empty_iff {compiles : Bytes → Bool} {ds : List Directive} :
    MoreOk compiles .empty ds ↔ BlockOk compiles ds :=
  ⟨fun h => h.toBlockOk, fun h => ⟨h, fun d _ => repeats_empty d⟩⟩

theorem repeats_add {compiles : Bytes → Bool} {d : Directive} (h : d.valid compiles = true)
    (σ : Settings) (e : Directive) : (σ.add d).repeats e = false ↔
      σ.repeats e = false ∧ ∀ k ∈ d.setting?, k ∉ e.setting? := by
  unfold Settings.repeats
  cases e.setting? with
  | none => simp
  | some k =>
    simp only [Option.any_some, Settings.holds_add h, Bool.or_eq_false_iff, decide_eq_false_iff_not]
    refine and_congr_right fun _ => ⟨fun hne k' hk' hmem => ?_, fun hall hk => hall k hk rfl⟩
    cases hmem
    exact hne hk'

/-- A block is accepted one directive after the other. -/
theorem moreOk_cons {compiles : Bytes → Bool} {σ : Settings} {d : Directive}
    {ds : List Directive} : MoreOk compiles σ (d :: ds) ↔
      σ.repeats d = false ∧ d.valid compiles = true ∧ MoreOk compiles (σ.add d) ds := by
  constructor
  · intro h
    have hd := h.valid d List.mem_cons_self
    have hnodup := h.nodup
    rw [List.filterMap_cons] at hnodup
    refine ⟨h.fresh d List.mem_cons_self, hd, ⟨⟨fun e he => h.valid e (List.mem_cons_of_mem d he),
      ?_⟩, fun e he => ?_⟩⟩
    · cases hk : d.setting? with
      | none => rwa [hk] at hnodup
      | some k =>
        rw [hk] at hnodup
        exact (List.nodup_cons.mp hnodup).2
    · refine (repeats_add hd σ e).mpr ⟨h.fresh e (List.mem_cons_of_mem d he), fun k hk hke => ?_⟩
      rw [Option.mem_def.mp hk] at hnodup
      exact (List.nodup_cons.mp hnodup).1 (List.mem_filterMap.mpr ⟨e, he, hke⟩)
  · rintro ⟨hfresh, hd, hmore⟩
    refine ⟨⟨List.forall_mem_cons.mpr ⟨hd, hmore.valid⟩, ?_⟩,
      List.forall_mem_cons.mpr ⟨hfresh, fun e he => ((repeats_add hd σ e).mp (hmore.fresh e he)).1⟩⟩
    rw [List.filterMap_cons]
    cases hk : d.setting? with
    | none => exact hmore.nodup
    | some k =>
      refine List.nodup_cons.mpr ⟨fun hmem => ?_, hmore.nodup⟩
      obtain ⟨e, he, hke⟩ := List.mem_filterMap.mp hmem
      exact ((repeats_add hd σ e).mp (hmore.fresh e he)).2 k hk hke

/-- What the blocks in a block say, as it is stored before merging. -/
def Items.nodes : Items → Nodes
  | .done => .none
  | .directive _ rest => rest.nodes
  | .block inner rest =>
    .node (inner.own.foldl Settings.add .empty).conf inner.nodes rest.nodes

theorem bind_eq_ok_iff {α β : Type} {x : Except ConfError α} {f : α → Except ConfError β} {b : β} :
    (x >>= f) = .ok b ↔ ∃ a, x = .ok a ∧ f a = .ok b := by
  cases x <;> simp [bind, Except.bind]

/-- **Reading a block**: it succeeds if the block and the blocks in it are in order, and stores what
their directives add up to. -/
theorem parseItems_ok_iff {compiles : Bytes → Bool} (items : Items) :
    ∀ {σ : Settings} {out : Parsed}, parseItems compiles items σ.conf = .ok out ↔
      MoreOk compiles σ items.own ∧ (∀ ds ∈ items.blocks, BlockOk compiles ds) ∧
        ⟨(items.own.foldl Settings.add σ).conf, items.nodes,
          items.directives.any Directive.selects⟩ = out := by
  induction items with
  | done =>
    intro σ out
    have hdone : MoreOk compiles σ [] := ⟨⟨nofun, List.nodup_nil⟩, nofun⟩
    simp [parseItems, Items.own, Items.blocks, Items.nodes, Items.directives, hdone]
  | directive d rest ih =>
    intro σ out
    simp only [parseItems, bind_eq_ok_iff, set_ok_iff, Items.own, Items.blocks, Items.nodes,
      Items.directives, moreOk_cons, List.foldl_cons, List.any_cons]
    constructor
    · rintro ⟨_, ⟨hfresh, hd, rfl⟩, sub, hsub, hout⟩
      obtain ⟨hmore, hblocks, rfl⟩ := ih.mp hsub
      exact ⟨⟨hfresh, hd, hmore⟩, hblocks, Except.ok.inj hout⟩
    · rintro ⟨⟨hfresh, hd, hmore⟩, hblocks, rfl⟩
      exact ⟨_, ⟨hfresh, hd, rfl⟩, _, ih.mpr ⟨hmore, hblocks, rfl⟩, rfl⟩
  | block inner rest ihInner ihRest =>
    intro σ out
    have hinitial : LocationConf.initial = Settings.empty.conf := rfl
    simp only [parseItems, bind_eq_ok_iff, hinitial, Items.own, Items.blocks, Items.nodes,
      Items.directives, List.any_append, List.cons_append, List.forall_mem_cons,
      List.forall_mem_append]
    constructor
    · rintro ⟨sub, hsub, more, hmore, hout⟩
      obtain ⟨hown, hnested, rfl⟩ := ihInner.mp hsub
      obtain ⟨hrest, hblocks, rfl⟩ := ihRest.mp hmore
      exact ⟨hrest, ⟨moreOk_empty_iff.mp hown, hnested, hblocks⟩, Except.ok.inj hout⟩
    · rintro ⟨hrest, ⟨hown, hnested, hblocks⟩, rfl⟩
      exact ⟨_, ihInner.mpr ⟨moreOk_empty_iff.mpr hown, hnested, rfl⟩, _,
        ihRest.mpr ⟨hrest, hblocks, rfl⟩, rfl⟩

/-! ## Merging -/

theorem findSome?_cons_eq_or {α : Type} (f : Directive → Option α) (d : Directive)
    (ds : List Directive) : (d :: ds).findSome? f = (f d).or (ds.findSome? f) := by
  rw [List.findSome?_cons]
  cases f d <;> rfl

/-- What the directives of a block add up to. -/
theorem foldl_add (ds : List Directive) : ∀ σ : Settings, ds.foldl Settings.add σ =
    ⟨σ.trace.or (ds.findSome? Directive.trace?), σ.context.or (ds.findSome? Directive.context?),
      σ.spanName.or (ds.findSome? Directive.spanName?), σ.attrs ++ ds.filterMap Directive.attr?,
      σ.logExport.or (ds.findSome? Directive.export?)⟩ := by
  induction ds with
  | nil => intro σ; simp
  | cons d ds ih =>
    intro σ
    rw [List.foldl_cons, ih]
    have hattrs : (d :: ds).filterMap Directive.attr? =
        d.attr?.toList ++ ds.filterMap Directive.attr? := by
      rw [List.filterMap_cons]
      cases d.attr? <;> rfl
    simp only [Settings.add, findSome?_cons_eq_or, hattrs, Option.or_assoc, List.append_assoc]

theorem nearest_cons {α : Type} (f : Directive → Option α) (ds : List Directive)
    (outer : List (List Directive)) :
    nearest f (ds :: outer) = (ds.findSome? f).or (nearest f outer) := by
  unfold nearest
  rw [List.findSome?_cons]
  cases ds.findSome? f <;> rfl

/-- A block inside others says what it says itself, and inherits the rest. -/
theorem settingsAt_cons (ds : List Directive) (outer : List (List Directive)) :
    settingsAt (ds :: outer) = (ds.foldl Settings.add .empty).inherit (settingsAt outer) := by
  rw [foldl_add]
  simp [settingsAt, nearest_cons, Settings.inherit, Settings.empty]

theorem settingsAt_single (ds : List Directive) :
    settingsAt [ds] = ds.foldl Settings.add .empty := by
  rw [settingsAt_cons, foldl_add]
  simp [settingsAt, nearest, Settings.inherit]

/-- **Merging from the outside inwards finds the innermost directive**, for every block. -/
theorem mergeNodes_nodes (items : Items) : ∀ outer : List (List Directive),
    mergeNodes (settingsAt outer).conf items.nodes =
      (items.nested outer).map fun scope => (settingsAt scope).conf := by
  induction items with
  | done => intro outer; rfl
  | directive d rest ih => intro outer; exact ih outer
  | block inner rest ihInner ihRest =>
    intro outer
    simp only [Items.nodes, Items.nested, mergeNodes, Settings.merge_conf, ← settingsAt_cons,
      ihInner, ihRest, List.map_append, List.map_cons, List.cons_append]

/-- **What the configuration is**: it is accepted if every block is in order, and then every block
has the settings that the text gives it. -/
theorem configure_ok_iff {compiles : Bytes → Bool} {http : Items}
    {out : Bool × List LocationConf} : configure compiles http = .ok out ↔
      (∀ ds ∈ http.own :: http.blocks, BlockOk compiles ds) ∧
        (http.directives.any Directive.selects,
          http.scopes.map fun scope => (settingsAt scope).conf) = out := by
  have hinitial : LocationConf.initial = Settings.empty.conf := rfl
  simp only [configure, bind_eq_ok_iff, hinitial, parseItems_ok_iff, moreOk_empty_iff,
    List.forall_mem_cons, Items.scopes, List.map_cons, ← mergeNodes_nodes, settingsAt_single]
  constructor
  · rintro ⟨_, ⟨hown, hblocks, rfl⟩, hout⟩
    exact ⟨⟨hown, hblocks⟩, Except.ok.inj hout⟩
  · rintro ⟨⟨hown, hblocks⟩, rfl⟩
    exact ⟨_, ⟨hown, hblocks, rfl⟩, rfl⟩

/-! ## Requests -/

theorem own_subset_directives (items : Items) : ∀ d ∈ items.own, d ∈ items.directives := by
  induction items with
  | done => exact fun _ h => h
  | directive e rest ih =>
    intro d hd
    rcases List.mem_cons.mp hd with rfl | hd
    · exact List.mem_cons_self
    · exact List.mem_cons_of_mem e (ih d hd)
  | block inner rest _ ih => exact fun d hd => List.mem_append_right _ (ih d hd)

/-- What stands in a scope stands in the text. -/
theorem nested_subset_directives (items : Items) : ∀ {outer scope : List (List Directive)},
    scope ∈ items.nested outer → ∀ ds ∈ scope, ds ∈ outer ∨ ∀ d ∈ ds, d ∈ items.directives := by
  induction items with
  | done => exact fun h => absurd h List.not_mem_nil
  | directive e rest ih =>
    intro outer scope hscope ds hds
    exact (ih hscope ds hds).imp_right fun hall d hd => List.mem_cons_of_mem e (hall d hd)
  | block inner rest ihInner ihRest =>
    intro outer scope hscope ds hds
    have hinner : ∀ ds ∈ inner.own :: outer,
        ds ∈ outer ∨ ∀ d ∈ ds, d ∈ (Items.block inner rest).directives := by
      intro ds hds
      rcases List.mem_cons.mp hds with rfl | hds
      · exact .inr fun d hd => List.mem_append_left _ (own_subset_directives inner d hd)
      · exact .inl hds
    rcases List.mem_cons.mp hscope with rfl | hscope
    · exact hinner ds hds
    rcases List.mem_append.mp hscope with hscope | hscope
    · rcases ihInner hscope ds hds with hds | hall
      · exact hinner ds hds
      · exact .inr fun d hd => List.mem_append_left _ (hall d hd)
    · exact (ihRest hscope ds hds).imp_right fun hall d hd => List.mem_append_right _ (hall d hd)

theorem scopes_subset_directives {http : Items} {scope : List (List Directive)}
    (h : scope ∈ http.scopes) : ∀ ds ∈ scope, ∀ d ∈ ds, d ∈ http.directives := by
  intro ds hds
  have howns : ∀ ds ∈ [http.own], ∀ d ∈ ds, d ∈ http.directives := by
    intro ds hds
    rw [List.mem_singleton.mp hds]
    exact own_subset_directives http
  rcases List.mem_cons.mp h with rfl | h
  · exact howns ds hds
  · exact (nested_subset_directives http h ds hds).elim (howns ds) id

/-- The setting of a scope comes from a directive of the text. -/
theorem mem_directives_of_nearest {α : Type} {f : Directive → Option α} {http : Items}
    {scope : List (List Directive)} (h : scope ∈ http.scopes) {a : α}
    (ha : nearest f scope = some a) : ∃ d ∈ http.directives, f d = some a := by
  obtain ⟨ds, hds, hfind⟩ := List.exists_of_findSome?_eq_some ha
  obtain ⟨d, hd, hf⟩ := List.exists_of_findSome?_eq_some hfind
  exact ⟨d, scopes_subset_directives h ds hds d hd, hf⟩

/-- **The flag never hides a selection**, and the condition of a location is never missing. -/
theorem checkExportSelected_settingsAt {http : Items} {scope : List (List Directive)}
    (h : scope ∈ http.scopes) (eval : Bytes → Option Bytes) :
    checkExportSelected eval (http.directives.any Directive.selects) (settingsAt scope).conf =
      some (LogExport.selects eval (nearest Directive.export? scope)) := by
  have hflag : ∀ e, nearest Directive.export? scope = some e → e ≠ .off →
      http.directives.any Directive.selects = true := by
    intro e he hoff
    obtain ⟨d, hd, hexport⟩ := mem_directives_of_nearest h he
    refine List.any_eq_true.mpr ⟨d, hd, ?_⟩
    unfold Directive.selects
    rw [hexport]
    cases e <;> first | rfl | exact absurd rfl hoff
  unfold checkExportSelected settingsAt Settings.conf
  dsimp only
  rcases he : nearest Directive.export? scope with _ | _ | _ | c
  · split <;> rfl
  · split <;> rfl
  · rw [hflag _ he (by simp)]
    rfl
  · rw [hflag _ he (by simp)]
    rfl

/-- **Requests do what the text says.**  A configuration is accepted exactly if in every block each
directive can be used and no setting is given twice.  Then every block has the settings of its
scope, where the innermost block with the directive decides: a request is exported if that directive
says so, whatever the flag of the main configuration, and it is traced under the expression and with
the propagation mode found there. -/
theorem location_settings (compiles : Bytes → Bool) (http : Items) :
    ((∃ out, configure compiles http = .ok out) ↔
      ∀ ds ∈ http.own :: http.blocks, BlockOk compiles ds) ∧
    ∀ any confs, configure compiles http = .ok (any, confs) →
      confs = http.scopes.map (fun scope => (settingsAt scope).conf) ∧
      ∀ scope ∈ http.scopes, ∀ eval,
        checkExportSelected eval any (settingsAt scope).conf =
          some (LogExport.selects eval (nearest Directive.export? scope)) ∧
        (settingsAt scope).conf.otelTrace = nearest Directive.trace? scope ∧
        (settingsAt scope).conf.traceContext =
          (nearest Directive.context? scope).getD .extract := by
  refine ⟨⟨fun ⟨out, hout⟩ => (configure_ok_iff.mp hout).1, fun hok =>
    ⟨_, configure_ok_iff.mpr ⟨hok, rfl⟩⟩⟩, fun any confs hout => ?_⟩
  obtain ⟨-, heq⟩ := configure_ok_iff.mp hout
  obtain ⟨rfl, rfl⟩ := Prod.mk.inj heq
  exact ⟨rfl, fun scope hscope eval => ⟨checkExportSelected_settingsAt hscope eval, rfl, rfl⟩⟩

/-- The `http` block exports everything and traces; one location of the server is off, another one
has a condition and propagates. -/
def sampleConf : Items :=
  .directive (.otelLogExport none) <| .directive (.otelTrace [0x24, 0x74]) <| .block
    (.block (.directive (.otelLogExport (some OFF)) .done) <|
      .block (.directive (.otelTraceContext PROPAGATE) <|
        .directive (.otelLogExport (some (IF ++ [0x24, 0x63]))) .done) .done)
    .done

theorem location_settings_sampleConf : ∃ confs,
    configure (fun _ => true) sampleConf = .ok (true, confs) ∧
    confs.map (checkExportSelected (fun _ => some [0x30]) true) =
      [some true, some true, some false, some false] ∧
    sampleConf.scopes.map (fun scope => LogExport.selects (fun _ => some [0x31])
      (nearest Directive.export? scope)) = [true, true, false, true] := by
  have hend : ∃ confs, configure (fun _ => true) sampleConf = .ok (true, confs) := ⟨_, rfl⟩
  obtain ⟨confs, hconf⟩ := hend
  obtain ⟨hconfs, -⟩ := (location_settings (fun _ => true) sampleConf).2 true confs hconf
  exact ⟨confs, hconf, by rw [hconfs]; decide, by decide⟩

-- A second `otel_trace` in one block is an error.
example : configure (fun _ => true) (.directive (.otelTrace [0x61]) <|
    .directive (.otelTrace [0x62]) .done) = .error .duplicate := by rfl

end NgxOtel.Config.Locations
