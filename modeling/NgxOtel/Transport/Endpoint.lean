import NgxOtel.Drain.Backoff
import NgxOtel.Lib.Delimiter
import NgxOtel.Transport.FixDate

/-!
# The endpoint, read three times

The `endpoint` of the exporter is checked by `validate_endpoint_tls` when the configuration is
read, asked by `endpoint_needs_resolver` whether a `resolver` must be configured, and taken apart by
`ParsedEndpoint::parse` for the connection (`config/mod.rs`, `transport/hyper_http.rs`).  Each of the
three finds the host in its own way, and `NgxConnector::connect` resolves the host of the third when
it is no IP address.

* `validateEndpointTls`, `ParsedEndpoint.parse`, `endpointNeedsResolver` — the three readers.
* `IpParser` — the standard library's `IpAddr` parser, of which the alphabet is used.
* `PlainlyWritten` — an address in brackets is all of the host, and the port beside an address has
  no sign.

## Results

* `parseU16_eq_some_iff` — what a port text is.
* `validateEndpointTls_scheme`, `parse_scheme`, `endpointNeedsResolver_scheme` — each reader as a
  function of the authority.
* `authority_cases` — **the three forms of an authority**, on which the readers differ.
* `accepted_endpoint_spec` — **host and port of an accepted endpoint, and when the resolver test of
  the configuration is the one of the connection**.
-/

set_option autoImplicit false

namespace NgxOtel.Transport

open Delimiter
open Drain (TransportError)

abbrev Text := List Char

/-! ## The standard library's parsers -/

/-- One turn of the digit loop of `u16::from_str`. -/
def u16Digit (v : Nat) (c : Char) : Option Nat :=
  if c.isDigit then do
    let v ← checkedMul 16 v 10
    checkedAdd 16 v (c.toNat - 48)
  else none

/-- `str::parse::<u16>`: a sign `+` is allowed, and at least one digit is needed. -/
def parseU16 (s : Text) : Option Nat :=
  let digits := (['+'].isPrefixOf? s).getD s
  if digits.isEmpty then none else digits.foldlM u16Digit 0

/-- The characters of an address. -/
def IP_CHARS : Text :=
  ['0', '1', '2', '3', '4', '5', '6', '7', '8', '9', 'a', 'b', 'c', 'd', 'e', 'f',
    'A', 'B', 'C', 'D', 'E', 'F', ':', '.']

def LOOPBACK : Text := ['1', '2', '7', '.', '0', '.', '0', '.', '1']

/-- `str::parse::<IpAddr>`, as far as it decides between an address and a name. -/
structure IpParser where
  accepts : Text → Bool
  charset : ∀ s, accepts s = true → ∀ c ∈ s, c ∈ IP_CHARS
  loopback : accepts LOOPBACK = true

instance : Inhabited IpParser where
  default :=
    { accepts := fun s => s == LOOPBACK
      charset := by
        intro s hs
        have hsubset : LOOPBACK ⊆ IP_CHARS := by decide
        rw [beq_iff_eq.mp hs]
        exact fun c hc => hsubset hc
      loopback := by decide }

/-! ## The authority -/

def UNIX : Text := ['u', 'n', 'i', 'x', ':']

def HTTP : Text := ['h', 't', 't', 'p', ':', '/', '/']

def HTTPS : Text := ['h', 't', 't', 'p', 's', ':', '/', '/']

/-- What stands between the scheme and the path. -/
def authorityOf (rest : Text) : Text := rest.takeWhile (· ≠ '/')

/-- Where the port separator is looked for: after the first `]` of a bracketed host. -/
def searchStart (authority : Text) : Nat :=
  if authority.head? = some '[' then ((authority.idxOf? ']').map (· + 1)).getD 0 else 0

/-- Host and port text, cut the same way by `validate_endpoint_tls` and `parse_authority`. -/
def splitAuthority (authority : Text) : Text × Option Text :=
  match rfind ':' (authority.drop (searchStart authority)) with
  | some rel =>
    let idx := searchStart authority + rel
    (authority.take idx, some (authority.drop (idx + 1)))
  | none => (authority, none)

/-- `strip_v6_brackets`. -/
def stripV6Brackets (host : Text) : Text :=
  if host.head? = some '[' ∧ host.getLast? = some ']' then (host.take (host.length - 1)).drop 1
  else host

/-! ## `validate_endpoint_tls` -/

inductive TlsConfigError where
  | badScheme
  | badHost
  | badPort
  | certWithoutKey
  | keyWithoutCert
  | fileMissing (label : String)
  deriving DecidableEq, Repr

/-- An empty text is an option that is not set. -/
structure TlsValidationInput where
  endpoint : Text
  trustedCert : Text
  sslCert : Text
  sslCertKey : Text
  sslVerifyOff : Bool
  deriving DecidableEq, Repr

/-- The host must not be empty; a port, where there is one, is a positive `u16`. -/
def validateAuthority (authority : Text) : Except TlsConfigError Unit :=
  let (hostRaw, portStr) := splitAuthority authority
  if (stripV6Brackets hostRaw).isEmpty then .error .badHost
  else
    match portStr with
    | none => .ok ()
    | some p =>
      match parseU16 p with
      | some n => if n > 0 then .ok () else .error .badPort
      | none => .error .badPort

/-- The client certificate and its key come together. -/
def validateCertPair (cert key : Text) : Except TlsConfigError Unit :=
  if !cert.isEmpty && key.isEmpty then .error .certWithoutKey
  else if cert.isEmpty && !key.isEmpty then .error .keyWithoutCert
  else .ok ()

/-- The first file that is named and does not exist. -/
def validateFiles (fileExists : Text → Bool) : List (String × Text) → Except TlsConfigError Unit
  | [] => .ok ()
  | (label, path) :: files =>
    if path.isEmpty then validateFiles fileExists files
    else if !fileExists path then .error (.fileMissing label)
    else validateFiles fileExists files

/-- `validate_endpoint_tls`. -/
def validateEndpointTls (input : TlsValidationInput) (fileExists : Text → Bool) :
    Except TlsConfigError Bool :=
  let isHttps := HTTPS.isPrefixOf input.endpoint
  let isHttp := HTTP.isPrefixOf input.endpoint
  if !(UNIX.isPrefixOf input.endpoint || isHttp || isHttps) then .error .badScheme
  else do
    if isHttp || isHttps then
      let rest := input.endpoint.drop (if isHttps then HTTPS.length else HTTP.length)
      validateAuthority (authorityOf rest)
    validateCertPair input.sslCert input.sslCertKey
    if isHttps then
      validateFiles fileExists
        [("trusted_certificate", input.trustedCert), ("ssl_certificate", input.sslCert),
          ("ssl_certificate_key", input.sslCertKey)]
    return input.sslVerifyOff

/-! ## `ParsedEndpoint::parse` -/

inductive ParsedEndpoint where
  | http (host : Text) (port : Nat) (path : Text)
  | https (host : Text) (port : Nat) (path : Text)
  | unix (socketPath : Text) (httpPath : Text)
  deriving DecidableEq, Repr

/-- `parse_authority`. -/
def parseAuthority (authority : Text) (defaultPort : Nat) : Text × Nat :=
  match splitAuthority authority with
  | (host, some port) => (host, (parseU16 port).getD defaultPort)
  | (host, none) => (host, defaultPort)

/-- Authority and path of what follows the scheme. -/
def splitPath (rest : Text) : Text × Text :=
  match rest.idxOf? '/' with
  | some i => (rest.take i, rest.drop i)
  | none => (rest, ['/'])

/-- `ParsedEndpoint::parse`. -/
def ParsedEndpoint.parse (input : Text) : Except TransportError ParsedEndpoint :=
  match HTTP.isPrefixOf? input with
  | some rest =>
    let (authority, path) := splitPath rest
    let (host, port) := parseAuthority authority 80
    .ok (.http host port path)
  | none =>
    match HTTPS.isPrefixOf? input with
    | some rest =>
      let (authority, path) := splitPath rest
      let (host, port) := parseAuthority authority 443
      .ok (.https host port path)
    | none =>
      match (UNIX ++ ['/', '/', '/']).isPrefixOf? input with
      | some rest => .ok (.unix ('/' :: rest) ['/'])
      | none =>
        match (UNIX ++ ['/', '/']).isPrefixOf? input with
        | some rest => .ok (.unix rest ['/'])
        | none =>
          match UNIX.isPrefixOf? input with
          | some rest => .ok (.unix rest ['/'])
          | none =>
            .error (.invalidEndpoint (String.ofList input)
              "endpoint must start with http://, https://, or unix:")

/-! ## `endpoint_needs_resolver` -/

/-- The host as `endpoint_needs_resolver` finds it. -/
def resolverHost (authority : Text) : Text :=
  match ['['].isPrefixOf? authority with
  | some inner => inner.takeWhile (· ≠ ']')
  | none =>
    match rfind ':' authority with
    | some i =>
      if (authority.drop (i + 1)).all Char.isDigit then authority.take i else authority
    | none => authority

/-- `endpoint_needs_resolver`. -/
def endpointNeedsResolver (ip : IpParser) (endpoint : Text) : Bool :=
  if UNIX.isPrefixOf endpoint then false
  else
    match HTTP.isPrefixOf? endpoint with
    | some rest => !ip.accepts (resolverHost (authorityOf rest))
    | none =>
      match HTTPS.isPrefixOf? endpoint with
      | some rest => !ip.accepts (resolverHost (authorityOf rest))
      | none => false

/-- The test of `NgxConnector::connect`: the host goes to the resolver. -/
def connectResolves (ip : IpParser) (host : Text) : Bool := !ip.accepts (stripV6Brackets host)

/-! ## What a port text is -/

/-- The number that a row of digits continues. -/
def decimal (v : Nat) (ds : Text) : Nat := ds.foldl (fun v c => v * 10 + (c.toNat - 48)) v

theorem decimal_cons (v : Nat) (c : Char) (ds : Text) :
    decimal v (c :: ds) = decimal (v * 10 + (c.toNat - 48)) ds := by
  rw [decimal, decimal, List.foldl_cons]

theorem le_decimal (ds : Text) (v : Nat) : v ≤ decimal v ds := by
  induction ds generalizing v with
  | nil => exact Nat.le_refl v
  | cons c ds ih =>
    have hrest := ih (v * 10 + (c.toNat - 48))
    rw [decimal_cons]
    omega

theorem u16Digit_eq_some_iff (v n : Nat) (c : Char) : u16Digit v c = some n ↔
    c.isDigit = true ∧ n = v * 10 + (c.toNat - 48) ∧ n < 2 ^ 16 := by
  by_cases hc : c.isDigit = true
  · rw [u16Digit, if_pos hc, and_iff_right hc]
    exact checked_append_digit
  · rw [u16Digit, if_neg hc]
    exact iff_of_false (Option.some_ne_none n).symm fun h => hc h.1

/-- The loop keeps the number within 16 bits and stops at the first character that is no digit. -/
theorem foldlM_u16Digit_eq_some_iff (n : Nat) : ∀ (ds : Text) {v : Nat}, v < 2 ^ 16 →
    (ds.foldlM u16Digit v = some n ↔
      (∀ c ∈ ds, c.isDigit = true) ∧ decimal v ds = n ∧ n < 2 ^ 16)
  | [], v, hv => by
    rw [List.foldlM_nil]
    constructor
    · intro h
      cases h
      exact ⟨fun c hc => absurd hc List.not_mem_nil, rfl, hv⟩
    · rintro ⟨-, rfl, -⟩
      rfl
  | c :: ds, v, hv => by
    rw [List.foldlM_cons, Option.bind_eq_bind, Option.bind_eq_some_iff, decimal_cons,
      List.forall_mem_cons]
    constructor
    · rintro ⟨m, hm, hrest⟩
      obtain ⟨hc, rfl, hlt⟩ := (u16Digit_eq_some_iff v m c).mp hm
      obtain ⟨hds, hn⟩ := (foldlM_u16Digit_eq_some_iff n ds hlt).mp hrest
      exact ⟨⟨hc, hds⟩, hn⟩
    · rintro ⟨⟨hc, hds⟩, hn, hlt⟩
      have hle := le_decimal ds (v * 10 + (c.toNat - 48))
      have hstep : v * 10 + (c.toNat - 48) < 2 ^ 16 := by omega
      exact ⟨_, (u16Digit_eq_some_iff v _ c).mpr ⟨hc, rfl, hstep⟩,
        (foldlM_u16Digit_eq_some_iff n ds hstep).mpr ⟨hds, hn, hlt⟩⟩

theorem not_plus_of_digits {ds tail : Text} (h : ∀ c ∈ ds, c.isDigit = true) :
    ds ≠ '+' :: tail := by
  rintro rfl
  exact absurd (h '+' List.mem_cons_self) (by decide)

theorem parseU16_digits {ds : Text} (hplus : ∀ tail, ds ≠ '+' :: tail) (hne : ds ≠ []) :
    parseU16 ds = ds.foldlM u16Digit 0 := by
  cases ds with
  | nil => exact absurd rfl hne
  | cons c ds =>
    have hc : ('+' == c) = false := beq_false_of_ne fun e => hplus ds (e ▸ rfl)
    simp [parseU16, List.isPrefixOf?, hc]

theorem parseU16_plus {ds : Text} (hne : ds ≠ []) :
    parseU16 ('+' :: ds) = ds.foldlM u16Digit 0 := by
  simp [parseU16, List.isPrefixOf?, hne]

/-- A port text: digits, behind a sign or not, of a number of 16 bits. -/
theorem parseU16_eq_some_iff (s : Text) (n : Nat) : parseU16 s = some n ↔
    ∃ ds, (s = ds ∨ s = '+' :: ds) ∧ ds ≠ [] ∧ (∀ c ∈ ds, c.isDigit = true) ∧
      decimal 0 ds = n ∧ n < 2 ^ 16 := by
  have hloop := fun ds => foldlM_u16Digit_eq_some_iff n ds (v := 0) (by decide)
  constructor
  · intro h
    by_cases hs : ∃ ds, s = '+' :: ds
    · obtain ⟨ds, rfl⟩ := hs
      have hne : ds ≠ [] := by
        rintro rfl
        exact absurd h (Option.some_ne_none n).symm
      rw [parseU16_plus hne] at h
      exact ⟨ds, .inr rfl, hne, (hloop ds).mp h⟩
    · have hne : s ≠ [] := by
        rintro rfl
        exact absurd h (Option.some_ne_none n).symm
      rw [parseU16_digits (fun tail e => hs ⟨tail, e⟩) hne] at h
      exact ⟨s, .inl rfl, hne, (hloop s).mp h⟩
  · rintro ⟨ds, rfl | rfl, hne, hrest⟩
    · rw [parseU16_digits (fun _ => not_plus_of_digits hrest.1) hne]
      exact (hloop s).mpr hrest
    · rw [parseU16_plus hne]
      exact (hloop ds).mpr hrest

/-! ## The readers on one scheme -/

inductive Scheme where
  | http
  | https
  deriving DecidableEq, Repr

namespace Scheme

def text : Scheme → Text
  | http => HTTP
  | https => HTTPS

def defaultPort : Scheme → Nat
  | http => 80
  | https => 443

def endpoint : Scheme → Text → Nat → Text → ParsedEndpoint
  | http => .http
  | https => .https

end Scheme

/-- The input of a configuration without TLS files. -/
def withoutFiles (endpoint : Text) (sslVerifyOff : Bool) : TlsValidationInput :=
  ⟨endpoint, [], [], [], sslVerifyOff⟩

theorem validateEndpointTls_scheme (s : Scheme) (rest : Text) (off : Bool)
    (fileExists : Text → Bool) : validateEndpointTls (withoutFiles (s.text ++ rest) off) fileExists =
      (validateAuthority (authorityOf rest)).map fun _ => off := by
  cases s <;> cases hauth : validateAuthority (authorityOf rest) <;>
    simp [validateEndpointTls, withoutFiles, Scheme.text, HTTP, HTTPS, UNIX, hauth,
      List.isPrefixOf, validateCertPair, validateFiles, Except.map, bind, Except.bind, pure,
      Except.pure]

theorem splitPath_fst (rest : Text) : (splitPath rest).1 = authorityOf rest := by
  rcases cut_cases '/' rest with h | ⟨authority, path, rfl, h⟩
  · rw [splitPath, List.idxOf?_eq_none_iff.mpr h, authorityOf, takeWhile_of_not_mem h]
  · rw [splitPath, idxOf?_append_cons path h, authorityOf, takeWhile_append_cons path h]
    exact List.take_left

theorem parse_scheme (s : Scheme) (rest : Text) : ParsedEndpoint.parse (s.text ++ rest) =
    .ok (s.endpoint (parseAuthority (authorityOf rest) s.defaultPort).1
      (parseAuthority (authorityOf rest) s.defaultPort).2 (splitPath rest).2) := by
  rw [← splitPath_fst]
  cases s <;> rfl

theorem endpointNeedsResolver_scheme (ip : IpParser) (s : Scheme) (rest : Text) :
    endpointNeedsResolver ip (s.text ++ rest) = !ip.accepts (resolverHost (authorityOf rest)) := by
  cases s <;> rfl

/-! ## The three forms of an authority -/

/-- A host without a bracket in front, a bracket that is never closed, and a bracketed literal with
what follows it. -/
theorem authority_cases (a : Text) : a.head? ≠ some '[' ∨
    (∃ inner, a = '[' :: inner ∧ ']' ∉ inner) ∨
    ∃ literal tail, a = '[' :: (literal ++ ']' :: tail) ∧ ']' ∉ literal := by
  by_cases h : a.head? = some '['
  · obtain ⟨inner, rfl⟩ := List.head?_eq_some_iff.mp h
    rcases cut_cases ']' inner with hin | ⟨literal, tail, rfl, hlit⟩
    · exact .inr (.inl ⟨inner, rfl, hin⟩)
    · exact .inr (.inr ⟨literal, tail, rfl, hlit⟩)
  · exact .inl h

theorem searchStart_plain {a : Text} (h : a.head? ≠ some '[') : searchStart a = 0 := if_neg h

theorem searchStart_unclosed {inner : Text} (h : ']' ∉ inner) : searchStart ('[' :: inner) = 0 := by
  have hnone : List.idxOf? ']' ('[' :: inner) = none := by simpa using h
  simp [searchStart, hnone]

theorem searchStart_literal {literal : Text} (tail : Text) (h : ']' ∉ literal) :
    searchStart ('[' :: (literal ++ ']' :: tail)) = literal.length + 2 := by
  have hsome := idxOf?_append_cons tail (show ']' ∉ '[' :: literal by simpa using h)
  rw [List.cons_append] at hsome
  simp [searchStart, hsome]

/-- No port, or the text behind the last `:` of the part that is searched. -/
theorem splitAuthority_cases {a skip searched : Text} (ha : a = skip ++ searched)
    (hskip : searchStart a = skip.length) :
    (':' ∉ searched ∧ splitAuthority a = (a, none)) ∨
      ∃ u port, searched = u ++ ':' :: port ∧ ':' ∉ port ∧
        splitAuthority a = (skip ++ u, some port) := by
  have hdrop : a.drop (searchStart a) = searched := by rw [hskip, ha, List.drop_left]
  rcases rcut_cases ':' searched with h | ⟨u, port, hsplit, h⟩
  · refine .inl ⟨h, ?_⟩
    rw [splitAuthority, hdrop, rfind_eq_none_iff.mpr h]
  · refine .inr ⟨u, port, hsplit, h, ?_⟩
    have hwhole : a = (skip ++ u) ++ ':' :: port := by rw [ha, hsplit, List.append_assoc]
    rw [splitAuthority, hdrop, hsplit, rfind_append_cons h]
    dsimp only
    rw [hskip, ← List.length_append, hwhole, List.take_left, ← List.drop_drop, List.drop_left]
    rfl

/-! ## What is accepted -/

theorem validateAuthority_eq_ok_iff (a : Text) : validateAuthority a = .ok () ↔
    stripV6Brackets (splitAuthority a).1 ≠ [] ∧
      ∀ p, (splitAuthority a).2 = some p → ∃ n, parseU16 p = some n ∧ 0 < n := by
  unfold validateAuthority
  rcases splitAuthority a with ⟨host, port⟩
  dsimp only
  by_cases hhost : stripV6Brackets host = []
  · simp [hhost]
  · rw [if_neg (by simpa using hhost)]
    cases port with
    | none => simp [hhost]
    | some p => cases hp : parseU16 p with
      | none => simp [hp]
      | some n => by_cases hn : 0 < n <;> simp [hhost, hp, hn]

/-- The port that an authority names: behind its last `:`, if there is one outside the brackets. -/
def NamesPort (s : Scheme) (authority host : Text) (port : Nat) : Prop :=
  (':' ∉ authority.drop (searchStart authority) ∧ authority = host ∧ port = s.defaultPort) ∨
    (':' ∈ authority.drop (searchStart authority) ∧
      ∃ text, authority = host ++ ':' :: text ∧ ':' ∉ text ∧ parseU16 text = some port)

theorem parseAuthority_fst (a : Text) (d : Nat) : (parseAuthority a d).1 = (splitAuthority a).1 := by
  unfold parseAuthority
  rcases splitAuthority a with ⟨host, _ | port⟩ <;> rfl

theorem searchStart_le (a : Text) : searchStart a ≤ a.length := by
  rcases authority_cases a with h | ⟨inner, rfl, h⟩ | ⟨literal, tail, rfl, h⟩
  · rw [searchStart_plain h]
    exact Nat.zero_le _
  · rw [searchStart_unclosed h]
    exact Nat.zero_le _
  · rw [searchStart_literal tail h]
    simp only [List.length_cons, List.length_append]
    omega

theorem parseAuthority_namesPort (s : Scheme) {a : Text} (h : validateAuthority a = .ok ()) :
    (parseAuthority a s.defaultPort).1 ≠ [] ∧
      NamesPort s a (parseAuthority a s.defaultPort).1 (parseAuthority a s.defaultPort).2 := by
  obtain ⟨hhost, hport⟩ := (validateAuthority_eq_ok_iff a).mp h
  constructor
  · rw [parseAuthority_fst]
    intro hnil
    rw [hnil] at hhost
    exact hhost rfl
  · have hskip : searchStart a = (a.take (searchStart a)).length :=
      (List.length_take_of_le (searchStart_le a)).symm
    rcases splitAuthority_cases (List.take_append_drop (searchStart a) a).symm hskip with
      ⟨hno, hsplit⟩ | ⟨u, text, hsearched, hno, hsplit⟩
    · rw [parseAuthority, hsplit]
      exact .inl ⟨hno, rfl, rfl⟩
    · obtain ⟨n, hn, -⟩ := hport text (by rw [hsplit])
      rw [parseAuthority, hsplit]
      refine .inr ⟨by simp [hsearched], text, ?_, hno, by simp [hn]⟩
      rw [List.append_assoc, ← hsearched, List.take_append_drop]

/-! ## The two resolver tests -/

/-- An address in brackets is all of the host, and the port beside an address has no sign. -/
def PlainlyWritten (ip : IpParser) (authority : Text) : Prop :=
  (∀ inner, authority = '[' :: inner → ip.accepts (inner.takeWhile (· ≠ ']')) = true →
    ∃ tail, inner = inner.takeWhile (· ≠ ']') ++ ']' :: tail ∧
      (tail = [] ∨ ∃ port, tail = ':' :: port ∧ ':' ∉ port)) ∧
  ∀ host digits, authority = host ++ ':' :: '+' :: digits → ':' ∉ digits → ip.accepts host = false

theorem IpParser.not_accepts (ip : IpParser) {s : Text} {c : Char} (hc : c ∉ IP_CHARS)
    (hs : c ∈ s) : ip.accepts s = false :=
  Bool.eq_false_iff.mpr fun h => hc (ip.charset s h c hs)

theorem stripV6Brackets_of_head {host : Text} (h : host.head? ≠ some '[') :
    stripV6Brackets host = host := if_neg fun hand => h hand.1

theorem stripV6Brackets_of_not_mem {host : Text} (h : ']' ∉ host) : stripV6Brackets host = host :=
  if_neg fun hand => h (List.mem_of_getLast? hand.2)

theorem stripV6Brackets_literal (literal : Text) :
    stripV6Brackets ('[' :: (literal ++ [']'])) = literal := by
  have hlast : ('[' :: (literal ++ [']'])).getLast? = some ']' := by
    rw [← List.cons_append, List.getLast?_concat]
  rw [stripV6Brackets, if_pos ⟨rfl, hlast⟩]
  simp

/-- Whatever follows a bracketed literal leaves a bracket in the stripped host. -/
theorem mem_stripV6Brackets_append {literal u : Text} (hu : u ≠ []) :
    ']' ∈ stripV6Brackets ('[' :: (literal ++ ']' :: u)) := by
  unfold stripV6Brackets
  split
  · obtain ⟨init, last, rfl⟩ := (List.eq_nil_or_concat' u).resolve_left hu
    have hlast : '[' :: (literal ++ ']' :: (init ++ [last])) =
        '[' :: (literal ++ ']' :: init) ++ [last] := by simp
    rw [← List.dropLast_eq_take, hlast, List.dropLast_concat]
    simp
  · simp

theorem IpParser.not_accepts_of_bracket (ip : IpParser) {a host tail : Text}
    (ha : a.head? = some '[') (hcut : a = host ++ ':' :: tail) : ip.accepts host = false := by
  cases host with
  | nil =>
    rw [hcut] at ha
    exact absurd (Option.some.inj ha) (by decide)
  | cons c host =>
    rw [hcut] at ha
    cases ha
    exact ip.not_accepts (by decide) List.mem_cons_self

theorem resolverHost_bracket (inner : Text) :
    resolverHost ('[' :: inner) = inner.takeWhile (· ≠ ']') := rfl

theorem isPrefixOf?_bracket_plain {a : Text} (h : a.head? ≠ some '[') :
    ['['].isPrefixOf? a = none := by
  cases a with
  | nil => rfl
  | cons c a =>
    have hc : ('[' == c) = false := beq_false_of_ne fun e => h (e ▸ rfl)
    simp [List.isPrefixOf?, hc]

theorem resolverHost_no_port {a : Text} (h : a.head? ≠ some '[') (hno : ':' ∉ a) :
    resolverHost a = a := by
  rw [resolverHost, isPrefixOf?_bracket_plain h, rfind_eq_none_iff.mpr hno]

theorem resolverHost_port {u port : Text} (h : (u ++ ':' :: port).head? ≠ some '[')
    (hno : ':' ∉ port) : resolverHost (u ++ ':' :: port) =
      if port.all Char.isDigit then u else u ++ ':' :: port := by
  rw [resolverHost, isPrefixOf?_bracket_plain h, rfind_append_cons hno]
  dsimp only
  rw [← List.drop_drop, List.drop_left, List.take_left]
  rfl

/-- Without a bracket the two tests differ on an address whose port has a sign. -/
theorem tests_agree_plain (ip : IpParser) {a : Text} (h : a.head? ≠ some '[')
    (hok : validateAuthority a = .ok ()) :
    ip.accepts (resolverHost a) = ip.accepts (stripV6Brackets (splitAuthority a).1) ↔
      PlainlyWritten ip a := by
  have hfirst : ∀ inner, a ≠ '[' :: inner := fun inner e => h (e ▸ rfl)
  obtain ⟨-, hport⟩ := (validateAuthority_eq_ok_iff a).mp hok
  rcases splitAuthority_cases (List.nil_append a).symm (searchStart_plain h) with
    ⟨hno, hsplit⟩ | ⟨u, port, rfl, hno, hsplit⟩
  · rw [hsplit, stripV6Brackets_of_head h, resolverHost_no_port h hno]
    refine iff_of_true rfl ⟨fun inner e => absurd e (hfirst inner), ?_⟩
    rintro host digits rfl
    exact absurd (by simp) hno
  · have hu : u.head? ≠ some '[' := by
      cases u with
      | nil => exact Option.some_ne_none _ |>.symm
      | cons c u => exact h
    -- the cut at the last `:` is the only one
    have hunique : ∀ host digits, u ++ ':' :: port = host ++ ':' :: '+' :: digits →
        ':' ∉ digits → u = host ∧ port = '+' :: digits := by
      intro host digits e hdigits
      have hplus : ':' ∉ '+' :: digits := by simpa using hdigits
      exact rcut_unique hno hplus e
    obtain ⟨n, hn, -⟩ := hport port (by rw [hsplit])
    obtain ⟨ds, hds, -, hdigits, -⟩ := (parseU16_eq_some_iff port n).mp hn
    rw [hsplit, List.nil_append, stripV6Brackets_of_head hu, resolverHost_port h hno]
    rcases hds with rfl | rfl
    · rw [if_pos (List.all_eq_true.mpr hdigits)]
      refine iff_of_true rfl ⟨fun inner e => absurd e (hfirst inner), ?_⟩
      intro host digits e hcolon
      exact absurd (hunique host digits e hcolon).2 (not_plus_of_digits hdigits)
    · have hwhole : ip.accepts (u ++ ':' :: '+' :: ds) = false :=
        ip.not_accepts (show '+' ∉ IP_CHARS by decide) (by simp)
      rw [if_neg (by simp), hwhole]
      constructor
      · intro haddr
        refine ⟨fun inner e => absurd e (hfirst inner), ?_⟩
        intro host digits e hcolon
        rw [← (hunique host digits e hcolon).1]
        exact haddr.symm
      · intro hplain
        exact (hplain.2 u ds rfl (by simpa using hno)).symm

/-- A bracket that is never closed: the host keeps it, and `endpoint_needs_resolver` drops it. -/
theorem tests_agree_unclosed (ip : IpParser) {inner : Text} (h : ']' ∉ inner) :
    ip.accepts (resolverHost ('[' :: inner)) =
        ip.accepts (stripV6Brackets (splitAuthority ('[' :: inner)).1) ↔
      PlainlyWritten ip ('[' :: inner) := by
  have hhost : ip.accepts (stripV6Brackets (splitAuthority ('[' :: inner)).1) = false := by
    have hwhole : ']' ∉ '[' :: inner := by simpa using h
    rcases splitAuthority_cases (List.nil_append ('[' :: inner)).symm (searchStart_unclosed h) with
      ⟨-, hsplit⟩ | ⟨u, port, hcut, -, hsplit⟩
    · rw [hsplit, stripV6Brackets_of_not_mem hwhole]
      exact ip.not_accepts (show '[' ∉ IP_CHARS by decide) List.mem_cons_self
    · have hu : ']' ∉ u := fun hmem => hwhole (hcut ▸ List.mem_append_left _ hmem)
      rw [hsplit, List.nil_append, stripV6Brackets_of_not_mem hu]
      exact ip.not_accepts_of_bracket rfl hcut
  rw [hhost, resolverHost_bracket, takeWhile_of_not_mem h]
  constructor
  · intro hname
    refine ⟨fun inner' e haddr => ?_, fun host digits e _ => ip.not_accepts_of_bracket rfl e⟩
    cases e
    rw [takeWhile_of_not_mem h, hname] at haddr
    cases haddr
  · intro hplain
    refine Bool.eq_false_iff.mpr fun haddr => ?_
    obtain ⟨tail, hinner, -⟩ := hplain.1 inner rfl (by rw [takeWhile_of_not_mem h]; exact haddr)
    exact h (hinner ▸ by simp)

/-- A bracketed literal: the tests agree unless an address is followed by more than a port. -/
theorem tests_agree_literal (ip : IpParser) {literal tail : Text} (h : ']' ∉ literal) :
    ip.accepts (resolverHost ('[' :: (literal ++ ']' :: tail))) =
        ip.accepts (stripV6Brackets (splitAuthority ('[' :: (literal ++ ']' :: tail))).1) ↔
      PlainlyWritten ip ('[' :: (literal ++ ']' :: tail)) := by
  have hskip : searchStart ('[' :: (literal ++ ']' :: tail)) =
      ('[' :: (literal ++ [']'])).length := by
    rw [searchStart_literal tail h]
    simp
  have hwhole : '[' :: (literal ++ ']' :: tail) = '[' :: (literal ++ [']']) ++ tail := by simp
  -- what stands between the literal and the port
  obtain ⟨u, hhost, hu⟩ : ∃ u, (splitAuthority ('[' :: (literal ++ ']' :: tail))).1 =
      '[' :: (literal ++ ']' :: u) ∧
      (u = [] ↔ tail = [] ∨ ∃ port, tail = ':' :: port ∧ ':' ∉ port) := by
    rcases splitAuthority_cases hwhole hskip with ⟨hno, hsplit⟩ | ⟨u, port, rfl, hno, hsplit⟩
    · refine ⟨tail, by rw [hsplit], ⟨.inl, ?_⟩⟩
      rintro (rfl | ⟨port, rfl, -⟩)
      · rfl
      · exact absurd List.mem_cons_self hno
    · refine ⟨u, by rw [hsplit]; simp, ⟨?_, ?_⟩⟩
      · rintro rfl
        exact .inr ⟨port, rfl, hno⟩
      · rintro (e | ⟨port', e, hno'⟩)
        · simp at e
        · exact (rcut_unique hno hno' (show u ++ ':' :: port = [] ++ ':' :: port' from e)).1
  have hsecond : ∀ host digits, '[' :: (literal ++ ']' :: tail) = host ++ ':' :: '+' :: digits →
      ':' ∉ digits → ip.accepts host = false := fun host digits e _ =>
    ip.not_accepts_of_bracket rfl e
  rw [hhost, resolverHost_bracket, takeWhile_append_cons tail h]
  by_cases hnil : u = []
  · subst hnil
    rw [stripV6Brackets_literal]
    refine iff_of_true rfl ⟨?_, hsecond⟩
    rintro inner e -
    cases e
    rw [takeWhile_append_cons tail h]
    exact ⟨tail, rfl, hu.mp rfl⟩
  · rw [ip.not_accepts (show ']' ∉ IP_CHARS by decide) (mem_stripV6Brackets_append hnil)]
    constructor
    · intro hname
      refine ⟨?_, hsecond⟩
      intro inner e haddr
      cases e
      rw [takeWhile_append_cons tail h, hname] at haddr
      cases haddr
    · intro hplain
      refine Bool.eq_false_iff.mpr fun haddr => hnil ?_
      obtain ⟨tail', hinner, hport⟩ := hplain.1 (literal ++ ']' :: tail) rfl (by
        rw [takeWhile_append_cons tail h]; exact haddr)
      rw [takeWhile_append_cons tail h] at hinner
      cases List.append_cancel_left hinner
      exact hu.mpr hport

/-! ## Accepted endpoints -/

theorem tests_agree_iff (ip : IpParser) {a : Text} (hok : validateAuthority a = .ok ()) :
    ip.accepts (resolverHost a) = ip.accepts (stripV6Brackets (splitAuthority a).1) ↔
      PlainlyWritten ip a := by
  rcases authority_cases a with h | ⟨inner, rfl, h⟩ | ⟨literal, tail, rfl, h⟩
  · exact tests_agree_plain ip h hok
  · exact tests_agree_unclosed ip h
  · exact tests_agree_literal ip h

/-- For every endpoint with a scheme of HTTP that is accepted without TLS files: it is parsed, with
a host and with the port it names; and the resolver is asked for exactly when the connection will
use it if and only if the authority is plainly written. -/
theorem accepted_endpoint_spec (ip : IpParser) (s : Scheme) (rest : Text) (off warn : Bool)
    (fileExists : Text → Bool)
    (haccepted : validateEndpointTls (withoutFiles (s.text ++ rest) off) fileExists = .ok warn) :
    ∃ host port path, ParsedEndpoint.parse (s.text ++ rest) = .ok (s.endpoint host port path) ∧
      host ≠ [] ∧ NamesPort s (authorityOf rest) host port ∧
      ((endpointNeedsResolver ip (s.text ++ rest) = true ↔ connectResolves ip host = true) ↔
        PlainlyWritten ip (authorityOf rest)) := by
  have hok : validateAuthority (authorityOf rest) = .ok () := by
    rw [validateEndpointTls_scheme] at haccepted
    cases hauth : validateAuthority (authorityOf rest) with
    | ok _ => rfl
    | error e =>
      rw [hauth] at haccepted
      cases haccepted
  obtain ⟨hne, hport⟩ := parseAuthority_namesPort s hok
  refine ⟨_, _, _, parse_scheme s rest, hne, hport, ?_⟩
  rw [endpointNeedsResolver_scheme, connectResolves, parseAuthority_fst, ← tests_agree_iff ip hok]
  cases ip.accepts (resolverHost (authorityOf rest)) <;>
    cases ip.accepts (stripV6Brackets (splitAuthority (authorityOf rest)).1) <;> decide

/-- `http://127.0.0.1:80`. -/
theorem accepted_endpoint_spec_loopback :
    validateEndpointTls (withoutFiles (Scheme.http.text ++ (LOOPBACK ++ [':', '8', '0'])) false)
        (fun _ => false) = .ok false ∧
      ∃ host port path,
        ParsedEndpoint.parse (Scheme.http.text ++ (LOOPBACK ++ [':', '8', '0'])) =
          .ok (Scheme.http.endpoint host port path) ∧
        host ≠ [] ∧ NamesPort .http (authorityOf (LOOPBACK ++ [':', '8', '0'])) host port ∧
        ((endpointNeedsResolver default (Scheme.http.text ++ (LOOPBACK ++ [':', '8', '0'])) = true ↔
          connectResolves default host = true) ↔
            PlainlyWritten default (authorityOf (LOOPBACK ++ [':', '8', '0']))) :=
  ⟨by decide, accepted_endpoint_spec default .http _ false false (fun _ => false) (by decide)⟩

/-- `http://127.0.0.1:+80` is accepted and its host is an address, yet a resolver is asked for. -/
theorem signed_port_needs_resolver :
    validateEndpointTls (withoutFiles (HTTP ++ (LOOPBACK ++ [':', '+', '8', '0'])) false)
        (fun _ => false) = .ok false ∧
      ParsedEndpoint.parse (HTTP ++ (LOOPBACK ++ [':', '+', '8', '0'])) =
        .ok (.http LOOPBACK 80 ['/']) ∧
      ∀ ip : IpParser,
        endpointNeedsResolver ip (HTTP ++ (LOOPBACK ++ [':', '+', '8', '0'])) = true ∧
          connectResolves ip LOOPBACK = false := by
  refine ⟨by decide, by decide, fun ip => ⟨?_, ?_⟩⟩
  · have hneeds : endpointNeedsResolver ip (HTTP ++ (LOOPBACK ++ [':', '+', '8', '0'])) =
        !ip.accepts (LOOPBACK ++ [':', '+', '8', '0']) := rfl
    rw [hneeds, ip.not_accepts (show '+' ∉ IP_CHARS by decide) (by decide)]
    rfl
  · show (!ip.accepts LOOPBACK) = false
    rw [ip.loopback]
    rfl

end NgxOtel.Transport
