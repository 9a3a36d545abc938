import Mathlib.Data.List.Forall2
import NgxOtel.DataModel

/-!
# Attributes and the envelope of an export request

The messages of `common.proto` and `resource.proto` that `encoder/mod.rs` fills in, and the frame
that its three encoders build around their items: one resource with one instrumentation scope.  How
a message is written as bytes is the business of the generated code and not of this module.

* `Proto.AnyValue`, `Proto.KeyValue`, `Proto.Resource`, `Proto.InstrumentationScope`,
  `Proto.ExportRequest` — the generated message types, field by field.
* `convertAnyValue`, `convertKv`, `envelope` — the encoders' part.
* `Proto.AnyValue.ReadsAs`, `Proto.KeyValue.ReadsAs`, `Proto.ExportRequest.ReadsAs` — what a message
  says to those who read it.

## Results

* `readsAs_convertKv`, `readsAs_envelope` — the encoders say what they were given.
* `convertKv_injective` — different attributes become different messages.
* `envelope_inj` — an envelope determines its resource, its scope and its items.
-/

set_option autoImplicit false

namespace NgxOtel.Otlp

open Word DataModel

/-- An `f64`, as its bits. -/
abbrev F64 := UInt64

/-! ## The messages -/

namespace Proto

mutual

/-- `AnyValue { value: Option<any_value::Value> }`, with `ArrayValue` and `KeyValueList` inlined. -/
inductive AnyValue where
  | unset
  | stringValue (s : String)
  | boolValue (b : Bool)
  | intValue (n : Int)
  | doubleValue (d : F64)
  | arrayValue (values : List AnyValue)
  | kvlistValue (values : List KeyValue)
  | bytesValue (b : Bytes)

inductive KeyValue where
  | mk (key : String) (value : Option AnyValue)

end

structure InstrumentationScope where
  name : String
  version : String
  attributes : List KeyValue
  droppedAttributesCount : UInt32

structure Resource where
  attributes : List KeyValue
  droppedAttributesCount : UInt32

/-- `ScopeLogs`, `ScopeSpans`, `ScopeMetrics`. -/
structure ScopeItems (α : Type) where
  scope : Option InstrumentationScope
  items : List α
  schemaUrl : String

/-- `ResourceLogs`, `ResourceSpans`, `ResourceMetrics`. -/
structure ResourceItems (α : Type) where
  resource : Option Resource
  scopes : List (ScopeItems α)
  schemaUrl : String

/-- `ExportLogsServiceRequest`, `ExportTraceServiceRequest`, `ExportMetricsServiceRequest`: one
field, the resources. -/
abbrev ExportRequest (α : Type) := List (ResourceItems α)

end Proto

/-! ## Conversion -/

mutual

/-- `convert_any_value`. -/
def convertAnyValue : AnyValue F64 → Proto.AnyValue
  | .string s => .stringValue s
  | .bool b => .boolValue b
  | .int n => .intValue n
  | .double d => .doubleValue d
  | .bytes b => .bytesValue b
  | .array values => .arrayValue (convertAnyValues values)

def convertAnyValues : List (AnyValue F64) → List Proto.AnyValue
  | [] => []
  | v :: values => convertAnyValue v :: convertAnyValues values

end

/-- `convert_kv`. -/
def convertKv (kv : KeyValue F64) : Proto.KeyValue := .mk kv.key (some (convertAnyValue kv.value))

/-- A discriminant `as i32`. -/
def asI32 (code : UInt8) : Int32 := code.toUInt32.toInt32

/-- The request the encoders build around their converted items. -/
def envelope {α : Type} (resource : Resource F64) (scope : Scope) (items : List α) :
    Proto.ExportRequest α :=
  [{ resource := some
      { attributes := resource.attributes.map convertKv, droppedAttributesCount := 0 }
     scopes :=
      [{ scope := some
          { name := scope.name, version := scope.version, attributes := [],
            droppedAttributesCount := 0 }
         items := items
         schemaUrl := "" }]
     schemaUrl := "" }]

/-! ## What a message says -/

namespace Proto

/-- The value that is spelled by a message. -/
inductive AnyValue.ReadsAs : AnyValue → DataModel.AnyValue F64 → Prop where
  | string (s : String) : ReadsAs (.stringValue s) (.string s)
  | bool (b : Bool) : ReadsAs (.boolValue b) (.bool b)
  | int (n : Int) : ReadsAs (.intValue n) (.int n)
  | double (d : F64) : ReadsAs (.doubleValue d) (.double d)
  | bytes (b : Bytes) : ReadsAs (.bytesValue b) (.bytes b)
  | array {messages : List AnyValue} {values : List (DataModel.AnyValue F64)}
      (h : List.Forall₂ ReadsAs messages values) : ReadsAs (.arrayValue messages) (.array values)

def KeyValue.ReadsAs (message : KeyValue) (kv : DataModel.KeyValue F64) : Prop :=
  ∃ value : AnyValue, message = .mk kv.key (some value) ∧ value.ReadsAs kv.value

/-- One resource with one scope, whose messages read as the items; everything else is empty. -/
def ExportRequest.ReadsAs {α β : Type} (item : α → β → Prop) (request : ExportRequest α)
    (resource : DataModel.Resource F64) (scope : Scope) (items : List β) : Prop :=
  ∃ attributes messages,
    request = [⟨some ⟨attributes, 0⟩,
      [⟨some ⟨scope.name, scope.version, [], 0⟩, messages, ""⟩], ""⟩] ∧
    List.Forall₂ KeyValue.ReadsAs attributes resource.attributes ∧
    List.Forall₂ item messages items

/-- The items of a request. -/
def ExportRequest.items {α : Type} (request : ExportRequest α) : List α :=
  (request.flatMap (·.scopes)).flatMap (·.items)

end Proto

/-- Items that are converted one by one. -/
theorem forall₂_map {α β γ : Type} {rel : α → β → Prop} {f : γ → α} {g : γ → β}
    (h : ∀ c, rel (f c) (g c)) (items : List γ) :
    List.Forall₂ rel (items.map f) (items.map g) := by
  rw [List.forall₂_map_left_iff, List.forall₂_map_right_iff]
  exact List.forall₂_same.mpr fun c _ => h c

theorem forall₂_map_self {α β : Type} {rel : α → β → Prop} {f : β → α} (h : ∀ b, rel (f b) b)
    (items : List β) : List.Forall₂ rel (items.map f) items := by
  simpa using forall₂_map (g := id) h items

mutual

theorem readsAs_convertAnyValue : ∀ v, (convertAnyValue v).ReadsAs v
  | .string s => .string s
  | .bool b => .bool b
  | .int n => .int n
  | .double d => .double d
  | .bytes b => .bytes b
  | .array values => .array (readsAs_convertAnyValues values)

theorem readsAs_convertAnyValues :
    ∀ vs, List.Forall₂ Proto.AnyValue.ReadsAs (convertAnyValues vs) vs
  | [] => .nil
  | v :: vs => .cons (readsAs_convertAnyValue v) (readsAs_convertAnyValues vs)

end

theorem readsAs_convertKv (kv : KeyValue F64) : (convertKv kv).ReadsAs kv :=
  ⟨convertAnyValue kv.value, rfl, readsAs_convertAnyValue kv.value⟩

theorem toInt_asI32 (code : UInt8) : (asI32 code).toInt = code.toNat := by
  have hlt := code.toNat_lt
  have hnat : code.toUInt32.toBitVec.toNat = code.toNat := by simp
  show code.toUInt32.toBitVec.toInt = code.toNat
  rw [BitVec.toInt_eq_toNat_of_lt (by omega), hnat]

/-- **An envelope says what it was given.** -/
theorem readsAs_envelope {α β : Type} {item : α → β → Prop} {messages : List α} {items : List β}
    (h : List.Forall₂ item messages items) (resource : Resource F64) (scope : Scope) :
    Proto.ExportRequest.ReadsAs item (envelope resource scope messages) resource scope items :=
  ⟨_, messages, rfl, forall₂_map_self readsAs_convertKv resource.attributes, h⟩

/-! ## Nothing is merged -/

mutual

theorem convertAnyValue_inj : ∀ v w, convertAnyValue v = convertAnyValue w → v = w
  | .string _, w | .bool _, w | .int _, w | .double _, w | .bytes _, w => by
    intro h
    cases w <;> simp_all [convertAnyValue]
  | .array values, w => by
    intro h
    cases w with
    | array values' =>
      rw [convertAnyValue, convertAnyValue, Proto.AnyValue.arrayValue.injEq] at h
      rw [convertAnyValues_inj values values' h]
    | _ => simp [convertAnyValue] at h

theorem convertAnyValues_inj : ∀ vs ws, convertAnyValues vs = convertAnyValues ws → vs = ws
  | [], [] => fun _ => rfl
  | [], _ :: _ => fun h => by simp [convertAnyValues] at h
  | _ :: _, [] => fun h => by simp [convertAnyValues] at h
  | v :: vs, w :: ws => by
    intro h
    rw [convertAnyValues, convertAnyValues, List.cons.injEq] at h
    rw [convertAnyValue_inj v w h.1, convertAnyValues_inj vs ws h.2]

end

theorem convertKv_injective : Function.Injective convertKv := by
  rintro ⟨key, value⟩ ⟨key', value'⟩ h
  simp only [convertKv, Proto.KeyValue.mk.injEq, Option.some.injEq] at h
  rw [h.1, convertAnyValue_inj value value' h.2]

@[simp] theorem map_convertKv_inj {kvs kvs' : List (KeyValue F64)} :
    kvs.map convertKv = kvs'.map convertKv ↔ kvs = kvs' :=
  convertKv_injective.list_map.eq_iff

theorem asI32_injective : Function.Injective asI32 := by
  have hinv : Function.LeftInverse (fun n : Int32 => n.toUInt32.toUInt8) asI32 := by
    intro code
    simp [asI32]
  exact hinv.injective

/-- **An envelope determines its contents.** -/
theorem envelope_inj {α : Type} {resource resource' : Resource F64} {scope scope' : Scope}
    {items items' : List α} :
    envelope resource scope items = envelope resource' scope' items' ↔
      resource = resource' ∧ scope = scope' ∧ items = items' := by
  obtain ⟨attributes⟩ := resource
  obtain ⟨attributes'⟩ := resource'
  obtain ⟨name, version⟩ := scope
  obtain ⟨name', version'⟩ := scope'
  simp [envelope, and_assoc]

end NgxOtel.Otlp
