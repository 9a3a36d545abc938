import NgxOtel.Lib.Word

/-!
# The dimensions of the duration histograms

A worker has one histogram for each `{method, status class, protocol}` combination, one for each
route and one for each upstream zone (`shm/mod.rs`).  The last slot of the two latter tables is for
what has no slot of its own.

* `HttpMethod`, `StatusClass`, `ProtoVersion` — the three dimensions, with the readings of nginx's
  values and the texts of the exported attributes.
* `comboIndex` — the slot of a combination.
-/

set_option autoImplicit false

namespace NgxOtel.Shm

open Word

/-! ## Methods -/

inductive HttpMethod where
  | get
  | head
  | post
  | put
  | delete
  | patch
  | options
  | other
  deriving DecidableEq, Repr

def N_HTTP_METHODS : Nat := 8

namespace HttpMethod

/-- `HttpMethod::from_bytes`. -/
def fromBytes (method : Bytes) : HttpMethod :=
  if method = [71, 69, 84] then get
  else if method = [72, 69, 65, 68] then head
  else if method = [80, 79, 83, 84] then post
  else if method = [80, 85, 84] then put
  else if method = [68, 69, 76, 69, 84, 69] then delete
  else if method = [80, 65, 84, 67, 72] then patch
  else if method = [79, 80, 84, 73, 79, 78, 83] then options
  else other

def fromIndex : Nat → HttpMethod
  | 0 => get
  | 1 => head
  | 2 => post
  | 3 => put
  | 4 => delete
  | 5 => patch
  | 6 => options
  | _ => other

/-- The discriminant. -/
def index : HttpMethod → Nat
  | get => 0
  | head => 1
  | post => 2
  | put => 3
  | delete => 4
  | patch => 5
  | options => 6
  | other => 7

def asStr : HttpMethod → String
  | get => "GET"
  | head => "HEAD"
  | post => "POST"
  | put => "PUT"
  | delete => "DELETE"
  | patch => "PATCH"
  | options => "OPTIONS"
  | other => "_OTHER"

end HttpMethod

/-! ## Status classes -/

inductive StatusClass where
  | s1xx
  | s2xx
  | s3xx
  | s4xx
  | s5xx
  deriving DecidableEq, Repr

def N_STATUS_CLASSES : Nat := 5

namespace StatusClass

/-- `StatusClass::from_status`; everything outside 100 to 499 is a server error. -/
def fromStatus (status : UInt16) : StatusClass :=
  if 100 ≤ status ∧ status ≤ 199 then s1xx
  else if 200 ≤ status ∧ status ≤ 299 then s2xx
  else if 300 ≤ status ∧ status ≤ 399 then s3xx
  else if 400 ≤ status ∧ status ≤ 499 then s4xx
  else s5xx

def fromIndex : Nat → StatusClass
  | 0 => s1xx
  | 1 => s2xx
  | 2 => s3xx
  | 3 => s4xx
  | _ => s5xx

def index : StatusClass → Nat
  | s1xx => 0
  | s2xx => 1
  | s3xx => 2
  | s4xx => 3
  | s5xx => 4

def asStr : StatusClass → String
  | s1xx => "1xx"
  | s2xx => "2xx"
  | s3xx => "3xx"
  | s4xx => "4xx"
  | s5xx => "5xx"

end StatusClass

/-! ## Protocol versions -/

inductive ProtoVersion where
  | http10
  | http11
  | http2
  | http3
  deriving DecidableEq, Repr

def N_PROTO_VERSIONS : Nat := 4

namespace ProtoVersion

/-- `ProtoVersion::from_ngx`. -/
def fromNgx (httpVersion : Nat) : ProtoVersion :=
  if httpVersion = 1000 then http10
  else if httpVersion = 1001 then http11
  else if httpVersion = 2000 then http2
  else if httpVersion = 3000 then http3
  else http11

def fromIndex : Nat → ProtoVersion
  | 0 => http10
  | 1 => http11
  | 2 => http2
  | _ => http3

def index : ProtoVersion → Nat
  | http10 => 0
  | http11 => 1
  | http2 => 2
  | http3 => 3

def asStr : ProtoVersion → String
  | http10 => "1.0"
  | http11 => "1.1"
  | http2 => "2"
  | http3 => "3"

end ProtoVersion

/-! ## Slots -/

def N_COMBOS : Nat := N_HTTP_METHODS * N_STATUS_CLASSES * N_PROTO_VERSIONS

/-- `combo_index`. -/
def comboIndex (method : HttpMethod) (statusClass : StatusClass) (proto : ProtoVersion) : Nat :=
  method.index * N_STATUS_CLASSES * N_PROTO_VERSIONS + statusClass.index * N_PROTO_VERSIONS +
    proto.index

theorem comboIndex_lt (method : HttpMethod) (statusClass : StatusClass) (proto : ProtoVersion) :
    comboIndex method statusClass proto < N_COMBOS := by
  cases method <;> cases statusClass <;> cases proto <;> decide

theorem HttpMethod.fromIndex_index (m : HttpMethod) : fromIndex m.index = m := by
  cases m <;> rfl

theorem StatusClass.index_lt (c : StatusClass) : c.index < N_STATUS_CLASSES := by
  cases c <;> decide

theorem StatusClass.fromIndex_index (c : StatusClass) : fromIndex c.index = c := by
  cases c <;> rfl

theorem ProtoVersion.index_lt (p : ProtoVersion) : p.index < N_PROTO_VERSIONS := by
  cases p <;> decide

theorem ProtoVersion.fromIndex_index (p : ProtoVersion) : fromIndex p.index = p := by
  cases p <;> rfl

/-- **Every combination has a slot of its own.** -/
theorem comboIndex_inj {m m' : HttpMethod} {c c' : StatusClass} {p p' : ProtoVersion} :
    comboIndex m c p = comboIndex m' c' p' ↔ m = m' ∧ c = c' ∧ p = p' := by
  constructor
  · intro h
    have hc := c.index_lt
    have hc' := c'.index_lt
    have hp := p.index_lt
    have hp' := p'.index_lt
    simp only [comboIndex, N_STATUS_CLASSES, N_PROTO_VERSIONS] at h hc hc' hp hp'
    have hm : m.index = m'.index := by omega
    have hclass : c.index = c'.index := by omega
    have hproto : p.index = p'.index := by omega
    exact ⟨m.fromIndex_index ▸ m'.fromIndex_index ▸ congrArg HttpMethod.fromIndex hm,
      c.fromIndex_index ▸ c'.fromIndex_index ▸ congrArg StatusClass.fromIndex hclass,
      p.fromIndex_index ▸ p'.fromIndex_index ▸ congrArg ProtoVersion.fromIndex hproto⟩
  · rintro ⟨rfl, rfl, rfl⟩
    rfl

def ROUTE_CAP : Nat := 64
def N_ROUTE_SLOTS : Nat := ROUTE_CAP + 1

def UPSTREAM_CAP : Nat := 32
def N_UPSTREAM_SLOTS : Nat := UPSTREAM_CAP + 1
def UPSTREAM_IDX_OTHER : Nat := UPSTREAM_CAP

end NgxOtel.Shm
