import FlowMesh.Agent.Delivery
import Mathlib.Logic.Function.Iterate

/-!
# What a drain removes

`DrainBuffer` of the edge agent against a control plane that answers 200 to every request that is
made. A buffered result without a command's id, or with one that makes no URL, is never requested,
stays at the head of the buffer and takes one of the 20 places of every later batch.

`rows_drain`: a drain removes those of the oldest 20 events that can be processed.
`drains_iff_processed`: drains empty the buffer in order exactly if all events can be.
-/

namespace Go

/-- Strings are read back as they were. -/
theorem lookupStr_rereadFields (round : Float64 → Float64) (key : String)
    (items : List (String × Value)) :
    Value.lookupStr key (rereadFields round items) = Value.lookupStr key items := by
  induction items with
  | nil => rfl
  | cons p items ih =>
    obtain ⟨k, v⟩ := p
    unfold Value.lookupStr at ih ⊢
    simp only [rereadFields, rereadField, List.find?_cons]
    by_cases hkey : k = key
    · cases v <;> simp [hkey, Value.reread]
    · simpa [hkey] using ih

end Go

namespace FlowMesh

open Async

section Drain

-- `http.NewRequest` refuses a URL that cannot be parsed.
variable (cfg : AgentConfig) (round : Go.Float64 → Go.Float64) (acceptsUrl : String → Bool)

/-- A control plane that answers 200 to every request; one that cannot be made is an error. -/
def answer200 : AgentOp → Except Unit ℕ
  | .post p => if acceptsUrl p.url then .ok 200 else .error ()
  | _ => .ok 200

/-- The buffer and that control plane. -/
def Delivery.handle200 : Handler AgentOp AgentOp.Res Unit Delivery :=
  fun o s => Delivery.handle round 0 (answer200 acceptsUrl o) o s

/-- One call of `DrainBuffer`. -/
def Delivery.drain (s : Delivery) : Delivery :=
  ((drainBuffer cfg).run (Delivery.handle200 round acceptsUrl) s).2

/-- A buffered event can be processed: it is no result, or there is a request for it. -/
def BufferedEvent.processed (ev : BufferedEvent) : Bool :=
  ev.eventType ≠ "command_result" ||
    (drainPost cfg ev.payload).any fun post => acceptsUrl post.url

end Drain

variable {cfg : AgentConfig} {round : Go.Float64 → Go.Float64} {acceptsUrl : String → Bool}
  {s : Delivery}

/-- A result can be processed if it has a command's id that makes a URL. -/
theorem BufferedEvent.processed_iff {ev : BufferedEvent} : ev.processed cfg acceptsUrl = true ↔
    (ev.eventType = "command_result" →
      ∃ cmdId, Go.Value.lookupStr "command_id" ev.payload = some cmdId ∧ cmdId ≠ "" ∧
        acceptsUrl (cfg.resultUrl cmdId) = true) := by
  unfold processed drainPost
  by_cases htype : ev.eventType = "command_result"
  · cases hid : Go.Value.lookupStr "command_id" ev.payload with
    | none => simp [htype]
    | some cmdId =>
      by_cases hempty : cmdId = ""
      · simp [htype, hempty, Option.filter]
      · simp [htype, hempty, Option.filter]
  · simp [htype]

/-- Whether a row can be processed is the same once it is read. -/
theorem processed_reread (ev : BufferedEvent) :
    ({ ev with payload := Go.rereadFields round ev.payload }).processed cfg acceptsUrl =
      ev.processed cfg acceptsUrl := by
  unfold BufferedEvent.processed drainPost
  simp only [Go.lookupStr_rereadFields]
  cases (Go.Value.lookupStr "command_id" ev.payload).filter (· ≠ "") <;> rfl

/-- One event of the loop: nothing is deleted yet. -/
theorem run_drainEvents_cons (ids : List ℕ) (ev : BufferedEvent) (events : List BufferedEvent) :
    ∃ s' : Delivery, s'.buffer = s.buffer ∧
      (drainEvents cfg ids (ev :: events)).run (Delivery.handle200 round acceptsUrl) s =
        (drainEvents cfg (if ev.processed cfg acceptsUrl then ids ++ [ev.id] else ids) events).run
          (Delivery.handle200 round acceptsUrl) s' := by
  rw [drainEvents]
  unfold BufferedEvent.processed
  split_ifs with htype hprocessed hprocessed
  · cases hpost : drainPost cfg ev.payload with
    | none => simp [htype, hpost] at hprocessed
    | some post =>
      have haccepts : acceptsUrl post.url = true := by simpa [htype, hpost] using hprocessed
      refine ⟨(Delivery.handle200 round acceptsUrl (.post post) s).2, ?_, ?_⟩
      · simp [Delivery.handle200, Delivery.handle, answer200, haccepts, isSuccess]
      · simp only [sendResult_bind, Prog.run]
        simp [Delivery.handle200, Delivery.handle, answer200, haccepts]
  · cases hpost : drainPost cfg ev.payload with
    | none => exact ⟨s, rfl, rfl⟩
    | some post =>
      have hrefuses : acceptsUrl post.url = false := by simpa [htype, hpost] using hprocessed
      refine ⟨s, rfl, ?_⟩
      simp only [sendResult_bind, Prog.run]
      simp [Delivery.handle200, Delivery.handle, answer200, hrefuses, isSuccess]
  · exact ⟨s, rfl, rfl⟩
  · simp [htype] at hprocessed

/-- The loop deletes what it has processed before and what it processes. -/
theorem rows_drainEvents (ids : List ℕ) (events : List BufferedEvent) :
    ((drainEvents cfg ids events).run (Delivery.handle200 round acceptsUrl) s).2.buffer.rows =
      s.buffer.rows.filter fun row =>
        row.id ∉ ids ++ (events.filter (·.processed cfg acceptsUrl)).map (·.id) := by
  induction events generalizing ids s with
  | nil =>
    unfold drainEvents
    split_ifs with hids
    · simp [hids]
    · rw [tryCall_bind]
      simp [Prog.run, Delivery.handle200, Delivery.handle, Buffer.delete]
  | cons ev events ih =>
    obtain ⟨s', hbuffer, hrun⟩ := @run_drainEvents_cons cfg round acceptsUrl s ids ev events
    rw [hrun, ih, hbuffer, List.filter_cons]
    split_ifs <;> simp

/-- **What a drain removes**: of the oldest 20 events those that can be processed. -/
theorem rows_drain : (s.drain cfg round acceptsUrl).buffer.rows =
    (s.buffer.rows.take 20).filter (fun row => !row.processed cfg acceptsUrl) ++
      s.buffer.rows.drop 20 := by
  have hrun : (s.drain cfg round acceptsUrl).buffer.rows =
      s.buffer.rows.filter fun row =>
        row.id ∉ ((s.buffer.peek round 20).filter (·.processed cfg acceptsUrl)).map (·.id) := by
    have hpeek := @rows_drainEvents cfg round acceptsUrl s [] (s.buffer.peek round 20)
    unfold Delivery.drain drainBuffer
    rw [tryCall_bind]
    exact hpeek
  have hids : ((s.buffer.peek round 20).filter (·.processed cfg acceptsUrl)).map (·.id) =
      ((s.buffer.rows.take 20).filter (·.processed cfg acceptsUrl)).map (·.id) := by
    unfold Buffer.peek
    rw [List.filter_map, List.map_map]
    have hsame : ((fun ev : BufferedEvent => ev.processed cfg acceptsUrl) ∘
        fun ev : BufferedEvent => { ev with payload := Go.rereadFields round ev.payload }) =
        fun ev => ev.processed cfg acceptsUrl := funext processed_reread
    rw [hsame]
    rfl
  have hdeleted : ∀ row ∈ s.buffer.rows, row.id ∈
      ((s.buffer.rows.take 20).filter (·.processed cfg acceptsUrl)).map (·.id) ↔
        row ∈ s.buffer.rows.take 20 ∧ row.processed cfg acceptsUrl = true := by
    intro row hrow
    simp only [List.mem_map, List.mem_filter]
    constructor
    · rintro ⟨row', ⟨hmem, hprocessed⟩, hid⟩
      obtain rfl := s.buffer.eq_of_id (List.mem_of_mem_take hmem) hrow hid
      exact ⟨hmem, hprocessed⟩
    · exact fun h => ⟨row, h, rfl⟩
  have hnodup : (s.buffer.rows.take 20 ++ s.buffer.rows.drop 20).Nodup := by
    rw [List.take_append_drop]
    exact s.buffer.sorted.imp fun hlt heq => absurd (congrArg (·.id) heq) (Nat.ne_of_lt hlt)
  have hdisjoint : List.Disjoint (s.buffer.rows.take 20) (s.buffer.rows.drop 20) :=
    List.disjoint_of_nodup_append hnodup
  rw [hrun, hids]
  calc s.buffer.rows.filter _
      = (s.buffer.rows.take 20).filter _ ++ (s.buffer.rows.drop 20).filter _ := by
        rw [← List.filter_append, List.take_append_drop]
    _ = _ := by
        congr 1
        · apply List.filter_congr
          intro row hrow
          have hiff := hdeleted row (List.mem_of_mem_take hrow)
          rw [and_iff_right hrow] at hiff
          rw [Bool.eq_iff_iff, decide_eq_true_iff, hiff, Bool.not_eq_true', Bool.not_eq_true]
        · rw [List.filter_eq_self]
          intro row hrow
          simp only [decide_eq_true_eq, hdeleted row (List.mem_of_mem_drop hrow)]
          exact fun h => hdisjoint h.1 hrow

/-- One drain removes exactly the oldest 20 events if all of them can be processed. -/
theorem rows_drain_iff : (s.drain cfg round acceptsUrl).buffer.rows = s.buffer.rows.drop 20 ↔
    ∀ row ∈ s.buffer.rows.take 20, row.processed cfg acceptsUrl = true := by
  rw [rows_drain, List.append_left_eq_self, List.filter_eq_nil_iff]
  simp

/-- What cannot be processed stays. -/
theorem mem_rows_drain {row : BufferedEvent} (hrow : row ∈ s.buffer.rows)
    (hblocked : ¬ row.processed cfg acceptsUrl = true) :
    row ∈ (s.drain cfg round acceptsUrl).buffer.rows := by
  rw [rows_drain, List.mem_append, List.mem_filter]
  rw [← List.take_append_drop 20 s.buffer.rows, List.mem_append] at hrow
  exact hrow.imp_left fun htake => ⟨htake, by simpa using hblocked⟩

theorem mem_rows_drains {row : BufferedEvent} (hrow : row ∈ s.buffer.rows)
    (hblocked : ¬ row.processed cfg acceptsUrl = true) (k : ℕ) :
    row ∈ ((Delivery.drain cfg round acceptsUrl)^[k] s).buffer.rows := by
  induction k with
  | zero => exact hrow
  | succ k ih =>
    rw [Function.iterate_succ_apply']
    exact mem_rows_drain ih hblocked

/-- Drains of events that can all be processed. -/
theorem rows_drains (hall : ∀ row ∈ s.buffer.rows, row.processed cfg acceptsUrl = true) (k : ℕ) :
    ((Delivery.drain cfg round acceptsUrl)^[k] s).buffer.rows = s.buffer.rows.drop (20 * k) := by
  induction k with
  | zero => rfl
  | succ k ih =>
    rw [Function.iterate_succ_apply', rows_drain_iff.2, ih, List.drop_drop, Nat.mul_succ]
    intro row hrow
    have hmem := List.mem_of_mem_take hrow
    rw [ih] at hmem
    exact hall row (List.mem_of_mem_drop hmem)

/-- **Drains**: one removes exactly the oldest 20 events if and only if these can be processed, and
repeated ones empty the buffer in order if and only if all events can. -/
theorem drains_iff_processed (cfg : AgentConfig) (round : Go.Float64 → Go.Float64)
    (acceptsUrl : String → Bool) (s : Delivery) :
    ((s.drain cfg round acceptsUrl).buffer.rows = s.buffer.rows.drop 20 ↔
        ∀ row ∈ s.buffer.rows.take 20, row.processed cfg acceptsUrl = true) ∧
      ((∀ k, ((Delivery.drain cfg round acceptsUrl)^[k] s).buffer.rows =
          s.buffer.rows.drop (20 * k)) ↔
        ∀ row ∈ s.buffer.rows, row.processed cfg acceptsUrl = true) := by
  refine ⟨rows_drain_iff, fun hdrains row hrow => ?_, rows_drains⟩
  by_contra hblocked
  have hmem : row ∈ ((Delivery.drain cfg round acceptsUrl)^[s.buffer.rows.length] s).buffer.rows :=
    mem_rows_drains hrow hblocked s.buffer.rows.length
  rw [hdrains, List.drop_of_length_le (by omega)] at hmem
  cases hmem

/-- A result without a command's id, as `Enqueue` stores it. -/
def unnamedResult : Delivery :=
  ⟨Buffer.new.enqueue "command_result" [("status", .str "success")], []⟩

theorem not_drains_unnamed : ¬ ∀ (cfg : AgentConfig) (round : Go.Float64 → Go.Float64)
    (acceptsUrl : String → Bool) (s : Delivery),
    (s.drain cfg round acceptsUrl).buffer.rows = s.buffer.rows.drop 20 := by
  intro hall
  have hdrain := hall keyedConfig id (fun _ => true) unnamedResult
  rw [rows_drain_iff] at hdrain
  have hprocessed := BufferedEvent.processed_iff.1 (hdrain _ List.mem_cons_self)
  obtain ⟨cmdId, hid, -⟩ := hprocessed rfl
  simp [Go.Value.lookupStr] at hid

end FlowMesh
