import Mathlib.Logic.Relation
import FlowMesh.Observability.Tracing
import FlowMesh.Python.Words

/-!
# Trace context from request to request

The header `traceparent` (`TraceContext`, `app/observability/tracing.py`), `record_span`, and
`TelemetryMiddleware`, which takes the trace of a request from its header, or begins one, and tells
the client in the header of the response. Requests are served at the same time; a client may send on
any header that it has seen.

`parseTraceparent_formatTraceparent`: a header is read as it was written.
`trace_propagated`: requests that follow each other are of one trace, which the store shows with all
their spans. `parents_dangle`: the id that a response hands on is not that of the recorded span.
-/

namespace FlowMesh.Tracing

open Python Retention

/-! ## The header -/

/-- `[0-9a-fA-F]`. -/
def isHexDigit (c : Char) : Bool :=
  let n := c.toNat
  (48 ≤ n ∧ n ≤ 57) ∨ (97 ≤ n ∧ n ≤ 102) ∨ (65 ≤ n ∧ n ≤ 70)

/-- Hexadecimal digits in lower case. -/
structure LowerHex (length : ℕ) (cs : List Char) : Prop where
  length : cs.length = length
  digits : ∀ c ∈ cs, isHexDigit c = true ∧ c.toLower = c

/-- `uuid.uuid4().hex`. -/
structure Uuid where
  hex : List Char
  digits : LowerHex 32 hex

/-- `generate_trace_id`. -/
def Uuid.traceId (u : Uuid) : String := String.ofList u.hex

/-- `generate_span_id`. -/
def Uuid.spanId (u : Uuid) : String := String.ofList (u.hex.take 16)

/-- `str.zfill`: the zeros go behind a sign. -/
def zfill (width : ℕ) (cs : List Char) : List Char :=
  let zeros := List.replicate (width - cs.length) '0'
  match cs with
  | c :: rest => if c = '+' ∨ c = '-' then c :: (zeros ++ rest) else zeros ++ cs
  | [] => zeros

/-- `id.replace("-", "").zfill(width)[:width]`. -/
def cleanId (width : ℕ) (id : String) : List Char :=
  (zfill width (id.toList.filter (· ≠ '-'))).take width

/-- `format_traceparent`. -/
def formatTraceparent (traceId spanId : String) (sampled : Bool) : String :=
  String.ofList ("00-".toList ++ (cleanId 32 traceId ++ ('-' :: (cleanId 16 spanId ++
    ('-' :: (if sampled then "01" else "00").toList)))))

/-- The text from a position on. -/
def slice (start length : ℕ) (cs : List Char) : List Char := (cs.drop start).take length

/-- `re.match(r"^00-([0-9a-fA-F]{32})-([0-9a-fA-F]{16})-[0-9a-fA-F]{2}$", ..)`, for a text that does
not end in a line break: every part has its place. -/
def matchTraceparent (cs : List Char) : Option (List Char × List Char) :=
  if cs.length = 55 ∧ slice 0 3 cs = "00-".toList ∧ (slice 3 32 cs).all isHexDigit ∧
      slice 35 1 cs = ['-'] ∧ (slice 36 16 cs).all isHexDigit ∧ slice 52 1 cs = ['-'] ∧
      (slice 53 2 cs).all isHexDigit then
    some (slice 3 32 cs, slice 36 16 cs)
  else none

/-- `parse_traceparent`; `none` is `(None, None)`. -/
def parseTraceparent (header : Option String) : Option (String × String) :=
  match header with
  | none => none
  | some header =>
    if header = "" then none
    else (matchTraceparent (strip header.toList)).map fun (traceId, spanId) =>
      (String.ofList (traceId.map Char.toLower), String.ofList (spanId.map Char.toLower))

/-! ## Reading what was written -/

section Header

theorem isHexDigit_induction {P : Char → Prop}
    (hP : ∀ n < 103, isHexDigit (Char.ofNat n) = true → P (Char.ofNat n)) {c : Char}
    (h : isHexDigit c = true) : P c := by
  have hlt : c.toNat < 103 := by
    simp only [isHexDigit, decide_eq_true_eq] at h
    omega
  have hc := hP c.toNat hlt
  rw [Char.ofNat_toNat] at hc
  exact hc h

theorem isHexDigit_toLower {c : Char} (h : isHexDigit c = true) :
    isHexDigit c.toLower = true ∧ c.toLower.toLower = c.toLower :=
  isHexDigit_induction (P := fun c => isHexDigit c.toLower = true ∧ c.toLower.toLower = c.toLower)
    (by decide) h

theorem isSpace_of_isHexDigit {c : Char} (h : isHexDigit c = true) : isSpace c = false := by
  simp only [isHexDigit, decide_eq_true_eq] at h
  simp only [isSpace, decide_eq_false_iff_not]
  omega

theorem ne_dash_of_isHexDigit {c : Char} (h : isHexDigit c = true) : c ≠ '-' := by
  rintro rfl
  exact absurd h (by decide)

variable {n : ℕ} {cs : List Char}

namespace LowerHex

theorem take (h : LowerHex n cs) {m : ℕ} (hm : m ≤ n) : LowerHex m (cs.take m) where
  length := by rw [List.length_take, h.length, min_eq_left hm]
  digits c hc := h.digits c (List.mem_of_mem_take hc)

/-- What is read in lower case. -/
theorem map_toLower (hlength : cs.length = n) (h : cs.all isHexDigit = true) :
    LowerHex n (cs.map Char.toLower) where
  length := by rw [List.length_map, hlength]
  digits c hc := by
    obtain ⟨d, hd, rfl⟩ := List.mem_map.1 hc
    exact isHexDigit_toLower (List.all_eq_true.1 h d hd)

theorem map_toLower_self (h : LowerHex n cs) : cs.map Char.toLower = cs := by
  calc cs.map Char.toLower
      = cs.map id := List.map_congr_left fun c hc => (h.digits c hc).2
    _ = cs := List.map_id cs

theorem all (h : LowerHex n cs) : cs.all isHexDigit = true :=
  List.all_eq_true.2 fun c hc => (h.digits c hc).1

end LowerHex

theorem zfill_of_length_le (h : n ≤ cs.length) : zfill n cs = cs := by
  unfold zfill
  rw [Nat.sub_eq_zero_of_le h]
  cases cs with
  | nil => rfl
  | cons c rest => simp

/-- Nothing is to be cleaned. -/
theorem cleanId_ofList (h : LowerHex n cs) : cleanId n (String.ofList cs) = cs := by
  have hfilter : cs.filter (· ≠ '-') = cs :=
    List.filter_eq_self.2 fun c hc => decide_eq_true (ne_dash_of_isHexDigit (h.digits c hc).1)
  rw [cleanId, String.toList_ofList, hfilter, zfill_of_length_le h.length.ge, ← h.length,
    List.take_length]

theorem slice_append {start length : ℕ} {before cs after : List Char}
    (hstart : before.length = start) (hlength : cs.length = length) :
    slice start length (before ++ (cs ++ after)) = cs := by
  rw [slice, List.drop_left' hstart, List.take_left' hlength]

/-- A text with every part in its place. -/
theorem matchTraceparent_append {traceId spanId flags : List Char} (htrace : LowerHex 32 traceId)
    (hspan : LowerHex 16 spanId) (hflags : flags.length = 2) (hdigits : flags.all isHexDigit) :
    matchTraceparent ("00-".toList ++ (traceId ++ ('-' :: (spanId ++ ('-' :: flags))))) =
      some (traceId, spanId) := by
  have hversion : "00-".toList.length = 3 := rfl
  set cs := "00-".toList ++ (traceId ++ ('-' :: (spanId ++ ('-' :: flags)))) with hcs
  have hlen : cs.length = 55 := by
    simp only [hcs, List.length_append, List.length_cons, hversion, htrace.length, hspan.length,
      hflags]
  have h₀ : slice 0 3 cs = "00-".toList := by
    rw [slice, List.drop_zero, hcs, List.take_left' hversion]
  have h₁ : slice 3 32 cs = traceId := slice_append hversion htrace.length
  have h₂ : slice 35 1 cs = ['-'] := by
    have hcs' : cs = ("00-".toList ++ traceId) ++ (['-'] ++ (spanId ++ ('-' :: flags))) := by
      simp [hcs]
    rw [hcs']
    exact slice_append (by simp [htrace.length]) rfl
  have h₃ : slice 36 16 cs = spanId := by
    have hcs' : cs = ("00-".toList ++ (traceId ++ ['-'])) ++ (spanId ++ ('-' :: flags)) := by
      simp [hcs]
    rw [hcs']
    exact slice_append (by simp [htrace.length]) hspan.length
  have h₄ : slice 52 1 cs = ['-'] := by
    have hcs' : cs = ("00-".toList ++ (traceId ++ ('-' :: spanId))) ++ (['-'] ++ flags) := by
      simp [hcs]
    rw [hcs']
    exact slice_append (by simp [htrace.length, hspan.length]) rfl
  have h₅ : slice 53 2 cs = flags := by
    have hcs' : cs = ("00-".toList ++ (traceId ++ ('-' :: (spanId ++ ['-'])))) ++
        (flags ++ []) := by simp [hcs]
    rw [hcs']
    exact slice_append (by simp [htrace.length, hspan.length]) hflags
  rw [matchTraceparent, h₀, h₁, h₂, h₃, h₄, h₅]
  exact if_pos ⟨hlen, rfl, htrace.all, rfl, hspan.all, rfl, hdigits⟩

/-- **A header is read as it was written.** -/
theorem parseTraceparent_formatTraceparent {traceId spanId : List Char}
    (htrace : LowerHex 32 traceId) (hspan : LowerHex 16 spanId) (sampled : Bool) :
    parseTraceparent (some (formatTraceparent (String.ofList traceId) (String.ofList spanId)
      sampled)) = some (String.ofList traceId, String.ofList spanId) := by
  set flags := (if sampled then "01" else "00").toList with hflags
  have hlength : flags.length = 2 := by cases sampled <;> rfl
  have hdigits : flags.all isHexDigit = true := by cases sampled <;> decide
  have hheader : formatTraceparent (String.ofList traceId) (String.ofList spanId) sampled =
      String.ofList ("00-".toList ++ (traceId ++ ('-' :: (spanId ++ ('-' :: flags))))) := by
    rw [formatTraceparent, cleanId_ofList htrace, cleanId_ofList hspan]
  have hspaces : ∀ c ∈ "00-".toList ++ (traceId ++ ('-' :: (spanId ++ ('-' :: flags)))),
      isSpace c = false := by
    have hdash : isSpace '-' = false := by decide
    intro c hc
    simp only [List.mem_append, List.mem_cons] at hc
    rcases hc with hc | hc | rfl | hc | rfl | hc
    · have hversion : "00-".toList.all (fun c => !isSpace c) = true := by decide
      simpa using List.all_eq_true.1 hversion c hc
    · exact isSpace_of_isHexDigit (htrace.digits c hc).1
    · exact hdash
    · exact isSpace_of_isHexDigit (hspan.digits c hc).1
    · exact hdash
    · exact isSpace_of_isHexDigit (List.all_eq_true.1 hdigits c hc)
  rw [hheader, parseTraceparent]
  simp only
  rw [if_neg, String.toList_ofList, strip_of_forall hspaces,
    matchTraceparent_append htrace hspan hlength hdigits, Option.map_some,
    htrace.map_toLower_self, hspan.map_toLower_self]
  intro hempty
  have := congrArg String.toList hempty
  rw [String.toList_ofList] at this
  simp at this

/-- What is read from a header is of the right form. -/
theorem lowerHex_of_parseTraceparent {header : Option String} {traceId spanId : String}
    (h : parseTraceparent header = some (traceId, spanId)) :
    LowerHex 32 traceId.toList ∧ LowerHex 16 spanId.toList := by
  unfold parseTraceparent at h
  split at h
  · cases h
  split_ifs at h
  obtain ⟨parts, hparts, heq⟩ := Option.map_eq_some_iff.1 h
  unfold matchTraceparent at hparts
  split_ifs at hparts with hmatch
  obtain ⟨hlength, -, htrace, -, hspan, -, -⟩ := hmatch
  cases hparts
  obtain ⟨rfl, rfl⟩ := Prod.mk.inj heq
  rw [String.toList_ofList, String.toList_ofList]
  refine ⟨.map_toLower ?_ htrace, .map_toLower ?_ hspan⟩
  · rw [slice, List.length_take, List.length_drop, hlength]
    rfl
  · rw [slice, List.length_take, List.length_drop, hlength]
    rfl

end Header

/-! ## Spans -/

/-- An exception of the wrapped code. -/
structure Raised where
  typeName : String
  text : String

section Spans

variable {Time : Type} (durationMs : Time → Time → ℚ)

/-- `record_span`, up to the `yield`. -/
def startSpan (name service : String) (traceId parentSpanId : Option String)
    (attributes : List (String × Data)) (fresh span : Uuid) (now : Time) : SpanRecord Time :=
  { traceId := if traceId.getD "" = "" then fresh.traceId else traceId.getD ""
    spanId := span.spanId
    parentSpanId
    name
    service
    startTime := now
    attributes }

/-- `record_span`, behind the `yield`, up to the recording. -/
def endSpan (span : SpanRecord Time) (result : Except Raised Unit) (now : Time) :
    SpanRecord Time :=
  let span :=
    match result with
    | .ok () => { span with status := "OK" }
    | .error e =>
      { span with
        status := "ERROR"
        errorMessage := some e.text
        attributes := span.attributes ++
          [("error.type", Data.str e.typeName), ("error.message", Data.str e.text)] }
  { span with endTime := some now, durationMs := durationMs span.startTime now }

/-- The span `span'` is `span` at its end. -/
structure SpanRecord.Ends (span span' : SpanRecord Time) : Prop where
  traceId : span'.traceId = span.traceId
  spanId : span'.spanId = span.spanId
  parentSpanId : span'.parentSpanId = span.parentSpanId
  name : span'.name = span.name
  service : span'.service = span.service
  startTime : span'.startTime = span.startTime
  attributes : span.attributes <+: span'.attributes

theorem ends_endSpan (span : SpanRecord Time) (result : Except Raised Unit) (now : Time) :
    span.Ends (endSpan durationMs span result now) := by
  cases result with
  | ok u => exact ⟨rfl, rfl, rfl, rfl, rfl, rfl, List.prefix_refl _⟩
  | error e => exact ⟨rfl, rfl, rfl, rfl, rfl, rfl, List.prefix_append _ _⟩

/-! ## The middleware -/

/-- What the middleware reads of a request. -/
structure HttpRequest where
  method : String
  path : String
  clientHost : Option String := none
  traceparent : Option String := none
  xRequestId : Option String := none
  xTenantId : Option String := none

/-- The calls of `uuid4` of a request. -/
structure Draws where
  trace : Uuid
  span : Uuid
  request : Uuid
  recorded : Uuid

/-- A request that is being served, or was. -/
structure Exchange (Time : Type) where
  header : Option String
  traceId : String
  spanId : String
  span : SpanRecord Time
  /-- The status and the header `traceparent` of the response, or the exception. -/
  outcome : Option (Except Raised (ℕ × String)) := none

/-- `dispatch`, up to `call_next`. -/
def openExchange (request : HttpRequest) (draws : Draws) (now : Time) : Exchange Time :=
  let parsed := parseTraceparent request.traceparent
  let traceId := (parsed.map Prod.fst).getD draws.trace.traceId
  let requestId :=
    if request.xRequestId.getD "" = "" then "req_" ++ String.ofList (draws.request.hex.take 12)
    else request.xRequestId.getD ""
  { header := request.traceparent
    traceId
    spanId := draws.span.spanId
    span := startSpan (request.method ++ " " ++ request.path) "flowmesh-api" (some traceId)
      (parsed.map Prod.snd)
      [("http.method", .str request.method), ("http.path", .str request.path),
        ("http.client_ip", .str (request.clientHost.getD "unknown")),
        ("request_id", .str requestId),
        ("tenant_id", .str (request.xTenantId.getD "tenant_default"))]
      draws.trace draws.recorded now }

/-- The span and the outcome of `dispatch`, when `call_next` has returned or raised. -/
def closeExchange (exchange : Exchange Time) (result : Except Raised ℕ) (now : Time) :
    SpanRecord Time × Except Raised (ℕ × String) :=
  match result with
  | .ok status =>
    let span := { exchange.span with
      attributes := exchange.span.attributes ++ [("http.status_code", .int status)] }
    (endSpan durationMs span (.ok ()) now,
      .ok (status, formatTraceparent exchange.traceId exchange.spanId true))
  | .error e => (endSpan durationMs exchange.span (.error e) now, .error e)

/-! ## Requests at the same time -/

/-- The requests, the store, and the spans that were recorded in it. -/
structure Telemetry (Time : Type) where
  exchanges : List (Exchange Time) := []
  store : TraceStore Time := {}
  recorded : List (SpanRecord Time) := []

/-- What happens next. -/
inductive TelemetryEvent (Time : Type)
  | arrive (request : HttpRequest) (draws : Draws) (now : Time)
  | finish (i : ℕ) (result : Except Raised ℕ) (now : Time)
  /-- A span of the engine. -/
  | record (span : SpanRecord Time)

/-- `trace_store.record_span(span)`. -/
def Telemetry.recordSpan (s : Telemetry Time) (span : SpanRecord Time) :
    Except PyError Unit × Telemetry Time :=
  match s.store.recordSpan span with
  | .ok store => (.ok (), { s with store, recorded := s.recorded ++ [span] })
  | .error e => (.error e, s)

/-- What an event does. -/
def Telemetry.step (s : Telemetry Time) : TelemetryEvent Time → Telemetry Time
  | .arrive request draws now =>
    { s with exchanges := s.exchanges ++ [openExchange request draws now] }
  | .finish i result now =>
    match s.exchanges[i]? with
    | none => s
    | some exchange =>
      if exchange.outcome.isSome then s
      else
        let (span, outcome) := closeExchange durationMs exchange result now
        let (recorded, s) := s.recordSpan span
        let outcome :=
          match recorded with
          | .ok () => outcome
          | .error e => .error ⟨"IndexError", e.message⟩
        { s with exchanges := s.exchanges.set i { exchange with outcome := some outcome } }
  | .record span => (s.recordSpan span).2

/-- What a run of events does. -/
def Telemetry.run (s : Telemetry Time) (events : List (TelemetryEvent Time)) : Telemetry Time :=
  events.foldl (Telemetry.step durationMs) s

end Spans

/-! ## What requests do to the trace -/

section Runs

variable {Time : Type} {durationMs : Time → Time → ℚ}

/-- The ids of a request are those of its header, or new ones, and its response hands them on. -/
structure Exchange.Traced (exchange : Exchange Time) (recorded : List (SpanRecord Time)) :
    Prop where
  trace : LowerHex 32 exchange.traceId.toList
  own : LowerHex 16 exchange.spanId.toList
  span : exchange.span.traceId = exchange.traceId
  incoming : ∀ traceId spanId, parseTraceparent exchange.header = some (traceId, spanId) →
    exchange.traceId = traceId ∧ exchange.span.parentSpanId = some spanId
  outgoing : ∀ status header, exchange.outcome = some (.ok (status, header)) →
    header = formatTraceparent exchange.traceId exchange.spanId true
  recorded : exchange.outcome.isSome → ∃ span ∈ recorded, exchange.span.Ends span

theorem Exchange.Traced.mono {exchange : Exchange Time}
    {recorded recorded' : List (SpanRecord Time)} (h : exchange.Traced recorded)
    (hsub : recorded ⊆ recorded') : exchange.Traced recorded' where
  trace := h.trace
  own := h.own
  span := h.span
  incoming := h.incoming
  outgoing := h.outgoing
  recorded hsome := by
    obtain ⟨span, hmem, hends⟩ := h.recorded hsome
    exact ⟨span, hsub hmem, hends⟩

theorem traced_openExchange (request : HttpRequest) (draws : Draws) (now : Time)
    (recorded : List (SpanRecord Time)) : (openExchange request draws now).Traced recorded := by
  have htrace : LowerHex 32 (openExchange request draws now).traceId.toList := by
    unfold openExchange
    cases hparsed : parseTraceparent request.traceparent with
    | none => simpa [Uuid.traceId] using draws.trace.digits
    | some ids => exact (lowerHex_of_parseTraceparent hparsed).1
  refine ⟨htrace, ?_, ?_, fun traceId spanId h => ?_, nofun, nofun⟩
  · simpa [openExchange, Uuid.spanId] using draws.span.digits.take (m := 16) (by omega)
  · refine if_neg fun hempty => ?_
    have hlength := htrace.length
    have hnil : (openExchange request draws now).traceId = "" := hempty
    rw [hnil] at hlength
    cases hlength
  · have h : parseTraceparent request.traceparent = some (traceId, spanId) := h
    unfold openExchange
    simp [h, startSpan]

/-- What is known of every state. -/
structure Telemetry.Traces (s : Telemetry Time) : Prop where
  store : Holds 1000 s.recorded s.store
  exchanges : ∀ exchange ∈ s.exchanges, exchange.Traced s.recorded

namespace Telemetry.Traces

variable {s : Telemetry Time}

theorem recordSpan (h : s.Traces) (span : SpanRecord Time) :
    (s.recordSpan span).1 = .ok () ∧ (s.recordSpan span).2.Traces ∧
      (s.recordSpan span).2.exchanges = s.exchanges ∧
        (s.recordSpan span).2.recorded = s.recorded ++ [span] := by
  obtain ⟨store, hstore, hholds⟩ := h.store.recordSpan (by omega) span
  unfold Telemetry.recordSpan
  rw [hstore]
  exact ⟨rfl, ⟨hholds, fun exchange hmem =>
    (h.exchanges exchange hmem).mono (List.subset_append_left ..)⟩, rfl, rfl⟩

theorem step (h : s.Traces) (ev : TelemetryEvent Time) : (s.step durationMs ev).Traces := by
  cases ev with
  | arrive request draws now =>
    refine ⟨h.store, fun exchange hmem => ?_⟩
    rcases List.mem_append.1 hmem with hmem | hmem
    · exact h.exchanges exchange hmem
    · obtain rfl := List.mem_singleton.1 hmem
      exact traced_openExchange ..
  | finish i result now =>
    simp only [Telemetry.step]
    cases hi : s.exchanges[i]? with
    | none => exact h
    | some exchange =>
      simp only
      split_ifs with hdone
      · exact h
      obtain ⟨hok, hs, hexchanges, hrecorded⟩ :=
        h.recordSpan (closeExchange durationMs exchange result now).1
      rw [hok]
      refine ⟨hs.store, fun exchange' hmem => ?_⟩
      rcases List.mem_or_eq_of_mem_set hmem with hmem | rfl
      · exact hs.exchanges exchange' hmem
      -- the request that has ended
      have htraced := h.exchanges exchange (List.mem_of_getElem? hi)
      refine ⟨htraced.trace, htraced.own, htraced.span, htraced.incoming,
        fun status header hout => ?_, fun _ => ?_⟩
      · cases result with
        | error e => cases hout
        | ok status' =>
          cases hout
          rfl
      · refine ⟨_, by rw [hrecorded]; exact List.mem_concat_self, ?_⟩
        cases result with
        | error e => exact ends_endSpan durationMs exchange.span (.error e) now
        | ok status => exact ⟨rfl, rfl, rfl, rfl, rfl, rfl, List.prefix_append _ _⟩
  | record span => exact (h.recordSpan span).2.1

theorem run (h : s.Traces) (events : List (TelemetryEvent Time)) :
    (s.run durationMs events).Traces := by
  induction events generalizing s with
  | nil => exact h
  | cons ev events ih => exact ih (h.step ev)

end Telemetry.Traces

theorem traces_run (events : List (TelemetryEvent Time)) :
    (Telemetry.run durationMs {} events).Traces :=
  Telemetry.Traces.run ⟨Holds.empty, fun _ h => absurd h List.not_mem_nil⟩ events

/-! ## Requests that follow each other -/

/-- The request was sent with the header of the other one's response. -/
def Exchange.Follows (exchange' exchange : Exchange Time) : Prop :=
  ∃ status header, exchange.outcome = some (.ok (status, header)) ∧ exchange'.header = some header

theorem Exchange.Traced.follows {exchange exchange' : Exchange Time}
    {recorded recorded' : List (SpanRecord Time)} (h : exchange.Traced recorded)
    (h' : exchange'.Traced recorded') (hfollows : exchange'.Follows exchange) :
    exchange'.traceId = exchange.traceId ∧ exchange'.span.parentSpanId = some exchange.spanId := by
  obtain ⟨status, header, houtcome, hheader⟩ := hfollows
  apply h'.incoming
  have hround := parseTraceparent_formatTraceparent h.trace h.own true
  rw [String.ofList_toList, String.ofList_toList, ← h.outgoing status header houtcome,
    ← hheader] at hround
  exact hround

/-- The request goes back to the other one, from response to response. -/
def Telemetry.Descends (s : Telemetry Time) (exchange' exchange : Exchange Time) : Prop :=
  Relation.ReflTransGen (fun a b => a ∈ s.exchanges ∧ b ∈ s.exchanges ∧ b.Follows a)
    exchange exchange'

theorem Telemetry.Traces.descends {s : Telemetry Time} (h : s.Traces)
    {exchange exchange' : Exchange Time} (hdescends : s.Descends exchange' exchange) :
    exchange'.traceId = exchange.traceId := by
  induction hdescends with
  | refl => rfl
  | tail _ hlast ih =>
    obtain ⟨hmem, hmem', hfollows⟩ := hlast
    exact ((h.exchanges _ hmem).follows (h.exchanges _ hmem') hfollows).1.trans ih

/-- Nothing is evicted from a store of few traces. -/
theorem Holds.getTrace_of_card_le [LinearOrder Time] {n : ℕ} {spans : List (SpanRecord Time)}
    {store : TraceStore Time} (h : Holds n spans store) (hn : 0 < n)
    (hcard : (spans.map (·.traceId)).toFinset.card ≤ n) {span : SpanRecord Time}
    (hspan : span ∈ spans) : ∃ found, store.getTrace span.traceId = some found ∧
      found.Perm (ofTrace span.traceId spans) ∧
        found.Pairwise fun s s' => s.startTime ≤ s'.startTime := by
  have hkept : span.traceId ∈ store.traceOrder := by
    rw [h.traceOrder]
    exact mem_kept hn hcard (List.mem_map_of_mem hspan)
  obtain ⟨past, since, rfl, hstay, hget⟩ := h.spans _ hkept
  -- the trace was admitted at its first span, as nothing was evicted
  have hpast : ofTrace span.traceId past = [] := by
    rw [ofTrace, List.filter_eq_nil_iff]
    intro old hold heq
    refine hstay.admitted (mem_kept hn ((Finset.card_le_card ?_).trans hcard) ?_)
    · rw [List.map_append, List.toFinset_append]
      exact Finset.subset_union_left
    · exact of_decide_eq_true heq ▸ List.mem_map_of_mem hold
  have hall : ofTrace span.traceId (past ++ since) = ofTrace span.traceId since := by
    rw [ofTrace, List.filter_append, ← ofTrace, ← ofTrace, hpast, List.nil_append]
  let byStart : SpanRecord Time → SpanRecord Time → Prop := fun s s' => s.startTime ≤ s'.startTime
  have htotal : Std.Total byStart := ⟨fun s s' => le_total s.startTime s'.startTime⟩
  have htrans : IsTrans (SpanRecord Time) byStart := ⟨fun _ _ _ h h' => le_trans h h'⟩
  rw [hall]
  exact ⟨_, getTrace_eq hget hstay.ofTrace_ne_nil, List.perm_insertionSort _ _,
    List.pairwise_insertionSort byStart _⟩

/-- **A trace goes from request to request.** Whatever requests come in with whatever headers, are
served at the same time and end in any order: a request that was sent with the header of a response
is of its trace, and has the id that it was handed as its parent; and all requests that go back to
one request in this way are found in the trace of that one, as long as no more traces were recorded
than the store has room for. -/
theorem trace_propagated [LinearOrder Time] (durationMs : Time → Time → ℚ)
    (events : List (TelemetryEvent Time)) :
    let s := Telemetry.run durationMs {} events
    (∀ exchange ∈ s.exchanges, ∀ exchange' ∈ s.exchanges, exchange'.Follows exchange →
      exchange'.traceId = exchange.traceId ∧
        exchange'.span.parentSpanId = some exchange.spanId) ∧
    ∀ exchange ∈ s.exchanges, ∀ exchange' ∈ s.exchanges, s.Descends exchange' exchange →
      exchange'.outcome.isSome → (s.recorded.map (·.traceId)).toFinset.card ≤ 1000 →
        ∃ found, s.store.getTrace exchange.traceId = some found ∧
          found.Perm (ofTrace exchange.traceId s.recorded) ∧
          (found.Pairwise fun s s' => s.startTime ≤ s'.startTime) ∧
          ∃ span ∈ found, exchange'.span.Ends span := by
  intro s
  have h : s.Traces := traces_run events
  refine ⟨fun exchange hmem exchange' hmem' hfollows =>
    (h.exchanges _ hmem).follows (h.exchanges _ hmem') hfollows, ?_⟩
  intro exchange _ exchange' hmem' hdescends hdone hcard
  have htraced := h.exchanges exchange' hmem'
  obtain ⟨span, hspan, hends⟩ := htraced.recorded hdone
  have htrace : span.traceId = exchange.traceId := by
    rw [hends.traceId, htraced.span, h.descends hdescends]
  obtain ⟨found, hfound, hperm, hsorted⟩ := h.store.getTrace_of_card_le (by omega) hcard hspan
  rw [htrace] at hfound hperm
  refine ⟨found, hfound, hperm, hsorted, span, hperm.mem_iff.2 ?_, hends⟩
  exact List.mem_filter.2 ⟨hspan, decide_eq_true htrace⟩

/-! ## Whose parent a span is -/

/-- The ids drawn for the requests that came in. -/
def arrivals (events : List (TelemetryEvent Time)) : List Draws :=
  events.filterMap fun
    | .arrive _ draws _ => some draws
    | _ => none

/-- A request has an id that it hands on, and its span an id of its own. -/
def Exchange.DrawnFrom (draws : List Draws) (exchange : Exchange Time) : Prop :=
  ∃ d ∈ draws, exchange.spanId = d.span.spanId ∧ exchange.span.spanId = d.recorded.spanId

theorem exchanges_recordSpan (s : Telemetry Time) (span : SpanRecord Time) :
    (s.recordSpan span).2.exchanges = s.exchanges := by
  unfold Telemetry.recordSpan
  cases s.store.recordSpan span <;> rfl

theorem drawnFrom_step {draws : List Draws} {s : Telemetry Time}
    (h : ∀ exchange ∈ s.exchanges, exchange.DrawnFrom draws) (ev : TelemetryEvent Time) :
    ∀ exchange ∈ (s.step durationMs ev).exchanges,
      exchange.DrawnFrom (draws ++ arrivals [ev]) := by
  have hmono : ∀ {exchange : Exchange Time}, exchange.DrawnFrom draws →
      exchange.DrawnFrom (draws ++ arrivals [ev]) := by
    rintro exchange ⟨d, hd, hids⟩
    exact ⟨d, List.mem_append_left _ hd, hids⟩
  cases ev with
  | arrive request d now =>
    intro exchange hmem
    rcases List.mem_append.1 hmem with hmem | hmem
    · exact hmono (h exchange hmem)
    · obtain rfl := List.mem_singleton.1 hmem
      exact ⟨d, List.mem_append_right _ List.mem_cons_self, rfl, rfl⟩
  | finish i result now =>
    intro exchange hmem
    simp only [Telemetry.step] at hmem
    cases hi : s.exchanges[i]? with
    | none =>
      rw [hi] at hmem
      exact hmono (h exchange hmem)
    | some old =>
      rw [hi] at hmem
      simp only at hmem
      split_ifs at hmem
      · exact hmono (h exchange hmem)
      · rw [exchanges_recordSpan] at hmem
        rcases List.mem_or_eq_of_mem_set hmem with hmem | rfl
        · exact hmono (h exchange hmem)
        · exact hmono (h old (List.mem_of_getElem? hi))
  | record span =>
    intro exchange hmem
    rw [Telemetry.step, exchanges_recordSpan] at hmem
    exact hmono (h exchange hmem)

theorem drawnFrom_run {draws : List Draws} {s : Telemetry Time}
    (h : ∀ exchange ∈ s.exchanges, exchange.DrawnFrom draws) (events : List (TelemetryEvent Time)) :
    ∀ exchange ∈ (s.run durationMs events).exchanges,
      exchange.DrawnFrom (draws ++ arrivals events) := by
  induction events generalizing s draws with
  | nil =>
    rw [arrivals, List.filterMap_nil, List.append_nil]
    exact h
  | cons ev events ih =>
    have hsplit : arrivals (ev :: events) = arrivals [ev] ++ arrivals events :=
      List.filterMap_append (l := [ev])
    rw [hsplit, ← List.append_assoc]
    exact ih (drawnFrom_step h ev)

/-- **The parent of a span is none of the recorded spans.** `record_span` draws an id of its own for
the span of a request, and the response hands on another one. So in every run whose draws differ the
span of a request that was sent with the header of a response names a parent that no request's span
has. -/
theorem parents_dangle (durationMs : Time → Time → ℚ) (events : List (TelemetryEvent Time))
    (hdraws : ∀ d ∈ arrivals events, ∀ d' ∈ arrivals events,
      d.span.spanId ≠ d'.recorded.spanId) :
    let s := Telemetry.run durationMs {} events
    ∀ exchange ∈ s.exchanges, ∀ exchange' ∈ s.exchanges, exchange'.Follows exchange →
      ∀ other ∈ s.exchanges, exchange'.span.parentSpanId ≠ some other.span.spanId := by
  intro s exchange hmem exchange' hmem' hfollows other hother heq
  have h : s.Traces := traces_run events
  have hdrawn : ∀ exchange ∈ s.exchanges, exchange.DrawnFrom ([] ++ arrivals events) :=
    drawnFrom_run (fun _ h => absurd h List.not_mem_nil) events
  rw [List.nil_append] at hdrawn
  obtain ⟨-, hparent⟩ := (h.exchanges _ hmem).follows (h.exchanges _ hmem') hfollows
  obtain ⟨d, hd, hown, -⟩ := hdrawn exchange hmem
  obtain ⟨d', hd', -, hrecorded⟩ := hdrawn other hother
  refine hdraws d hd d' hd' ?_
  rw [← hown, ← hrecorded]
  exact Option.some.inj (hparent.symm.trans heq)

end Runs

/-- A draw of one digit. -/
def uuidOf (c : Char) (hc : isHexDigit c = true ∧ c.toLower = c) : Uuid where
  hex := List.replicate 32 c
  digits := ⟨List.length_replicate, fun d hd => by rwa [List.eq_of_mem_replicate hd]⟩

/-- A request, and one that is sent with the header of its response. -/
def followed : List (TelemetryEvent ℚ) :=
  [.arrive { method := "GET", path := "/a" }
      ⟨uuidOf 'a' (by decide), uuidOf 'b' (by decide), uuidOf '0' (by decide),
        uuidOf 'c' (by decide)⟩ 0,
    .finish 0 (.ok 200) 1,
    .arrive
      { method := "GET", path := "/b"
        traceparent := some "00-aaaaaaaaaaaaaaaaaaaaaaaaaaaaaaaa-bbbbbbbbbbbbbbbb-01" }
      ⟨uuidOf '1' (by decide), uuidOf '2' (by decide), uuidOf '0' (by decide),
        uuidOf '3' (by decide)⟩ 2]

theorem parents_dangle_followed :
    ∃ exchange exchange' : Exchange ℚ, exchange'.Follows exchange ∧
      exchange'.span.parentSpanId = some "bbbbbbbbbbbbbbbb" ∧
        exchange'.span.parentSpanId ≠ some exchange.span.spanId := by
  have hdangle := parents_dangle (fun start now => (now - start) * 1000) followed (by decide)
  refine ⟨_, _, ?_, ?_, hdangle _ List.mem_cons_self _
    (List.mem_cons_of_mem _ List.mem_cons_self) ?_ _ List.mem_cons_self⟩
  · exact ⟨200, _, rfl, rfl⟩
  · rfl
  · exact ⟨200, _, rfl, rfl⟩

end FlowMesh.Tracing
