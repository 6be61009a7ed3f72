import FlowMesh.Engine.Errors
import Mathlib.Data.List.Infix

/-!
# Status codes and categories

`categorize_error` looks for its keywords anywhere in the lower-cased message. None of them can
reach from the front of `HTTP 503: ...` into the text behind it (`contains_append`), so that the
category of such a message is given by the status code and by the keywords of the text
(`status_decides_iff`): a text with a permanent keyword, a run of digits with `400` in it among
them, makes a `PERMANENT` error of a transient status.
-/

namespace FlowMesh

open Python

/-! ## Keywords -/

/-- The text of an open circuit breaker. -/
def saysOpen (message : String) : Bool :=
  contains (lower message) "circuit breaker is open" || contains (lower message) "circuit_open"

/-- A permanent keyword. -/
def saysPermanent (message : String) : Bool := permanentKeywords.any (contains (lower message))

/-- A transient keyword. -/
def saysTransient (message : String) : Bool := transientKeywords.any (contains (lower message))

theorem contains_iff {s : List Char} {keyword : String} :
    contains s keyword = true ↔ keyword.toList <:+: s := by
  simp [contains, List.infix_iff_prefix_suffix, List.mem_tails, and_comm]

theorem lower_append (s t : String) : lower (s ++ t) = lower s ++ lower t := by
  simp [lower]

/-- Text behind a message takes no keyword from it. -/
theorem contains_of_prefix {s : List Char} {keyword : String} (h : contains s keyword = true)
    (t : List Char) : contains (s ++ t) keyword = true :=
  contains_iff.2 ((contains_iff.1 h).trans (List.prefix_append s t).isInfix)

/-- A keyword without a colon, and with no blank in front, is in the text before `": "` or in the
text behind it. -/
theorem contains_append {keyword : String} (hcolon : ':' ∉ keyword.toList)
    (hblank : keyword.toList.head? ≠ some ' ') (s t : List Char) :
    contains (s ++ [':', ' '] ++ t) keyword =
      (contains (s ++ [':', ' ']) keyword || contains t keyword) := by
  rw [Bool.eq_iff_iff, Bool.or_eq_true, contains_iff, contains_iff, contains_iff]
  constructor
  · rintro ⟨before, after, heq⟩
    rw [List.append_assoc] at heq
    rcases List.append_eq_append_iff.1 heq with ⟨rest, hsep, hrest⟩ | ⟨rest, -, hrest⟩
    · rcases List.append_eq_append_iff.1 hrest with ⟨rest', hkeyword, -⟩ | ⟨rest', hkeyword, ht⟩
      · left
        exact ⟨before, rest', by rw [hsep, hkeyword, List.append_assoc]⟩
      · -- the keyword would begin in the part that ends with `": "`
        rcases List.eq_nil_or_concat rest with rfl | ⟨rest, c, rfl⟩
        · exact .inr ⟨[], after, by rw [ht, hkeyword]; rfl⟩
        rw [List.concat_eq_append, ← List.append_assoc, List.append_cons] at hsep
        obtain ⟨hinit, hlast⟩ := List.append_inj' hsep rfl
        obtain rfl : ' ' = c := by simpa using hlast
        rcases List.eq_nil_or_concat rest with rfl | ⟨rest, c, rfl⟩
        · exact absurd (by rw [hkeyword]; rfl) hblank
        · rw [List.concat_eq_append, ← List.append_assoc] at hinit
          obtain ⟨-, hlast⟩ := List.append_inj' hinit rfl
          obtain rfl : ':' = c := by simpa using hlast
          exact absurd (by rw [hkeyword]; simp) hcolon
    · right
      exact ⟨rest, after, by rw [hrest, List.append_assoc]⟩
  · rintro (h | h)
    · exact h.trans (List.prefix_append _ t).isInfix
    · exact h.trans (List.suffix_append _ t).isInfix

/-- `HTTP <status>: <text>`. -/
def statusMessage (status : ℕ) (text : String) : String :=
  "HTTP " ++ toString status ++ ": " ++ text

section Status

variable {status : ℕ}

/-- The keywords that can override a status. -/
theorem overriding_keywords : ∀ keyword ∈ ["circuit breaker is open", "circuit_open"] ++
    permanentKeywords, ':' ∉ keyword.toList ∧ keyword.toList.head? ≠ some ' ' := by
  decide +kernel

theorem lower_statusMessage (status : ℕ) (text : String) : lower (statusMessage status text) =
    lower ("HTTP " ++ toString status) ++ [':', ' '] ++ lower text := by
  rw [statusMessage, lower_append, lower_append]
  rfl

/-- A keyword of a status message is in its front or in its text. -/
theorem contains_statusMessage {keyword : String}
    (h : keyword ∈ ["circuit breaker is open", "circuit_open"] ++ permanentKeywords)
    (status : ℕ) (text : String) : contains (lower (statusMessage status text)) keyword =
      (contains (lower (statusMessage status "")) keyword || contains (lower text) keyword) := by
  obtain ⟨hcolon, hblank⟩ := overriding_keywords keyword h
  rw [lower_statusMessage, contains_append hcolon hblank, lower_statusMessage status ""]
  simp [lower]

theorem saysOpen_statusMessage (status : ℕ) (text : String) :
    saysOpen (statusMessage status text) =
      (saysOpen (statusMessage status "") || saysOpen text) := by
  have hopen := @contains_statusMessage "circuit breaker is open" (by simp) status text
  have hunderscore := @contains_statusMessage "circuit_open" (by simp) status text
  unfold saysOpen
  rw [hopen, hunderscore]
  ac_rfl

theorem saysPermanent_statusMessage (status : ℕ) (text : String) :
    saysPermanent (statusMessage status text) =
      (saysPermanent (statusMessage status "") || saysPermanent text) := by
  unfold saysPermanent
  rw [Bool.eq_iff_iff, Bool.or_eq_true, List.any_eq_true, List.any_eq_true, List.any_eq_true,
    ← exists_or]
  refine exists_congr fun keyword => ?_
  rw [← and_or_left]
  refine and_congr_right fun hkeyword => ?_
  rw [contains_statusMessage (List.mem_append_right _ hkeyword), Bool.or_eq_true]

theorem saysTransient_append {message : String} (h : saysTransient message = true)
    (text : String) : saysTransient (message ++ text) = true := by
  obtain ⟨keyword, hkeyword, hcontains⟩ := List.any_eq_true.1 h
  refine List.any_eq_true.2 ⟨keyword, hkeyword, ?_⟩
  rw [lower_append]
  exact contains_of_prefix hcontains _

end Status

theorem categorizeError_eq {kind : ExcKind} (hkind : kind ≠ .circuitBreakerOpenError)
    (message : String) : categorizeError ⟨kind, message⟩ =
      if saysOpen message then .circuitOpen
      else if saysPermanent message then .permanent
      else if saysTransient message ∨ kind = .timeoutError ∨ kind = .connectionError then .transient
      else .permanent := by
  unfold categorizeError
  rw [if_neg hkind]
  show (if saysOpen message then ErrorCategory.circuitOpen
    else if saysPermanent message then .permanent
    else if saysTransient message then .transient
    else if kind = .timeoutError ∨ kind = .connectionError then .transient
    else .permanent) = _
  by_cases htransient : saysTransient message = true
  · simp [htransient]
  · simp [htransient]

/-- `HTTP 429: ` and so on, without a text: the status is a transient keyword, and there is no
other one. -/
theorem transient_status : ∀ status ∈ [429, 500, 502, 503, 504],
    saysOpen (statusMessage status "") = false ∧ saysPermanent (statusMessage status "") = false ∧
      saysTransient (statusMessage status "") = true := by
  decide +kernel

theorem permanent_status : ∀ status ∈ [400, 401, 403, 404, 422],
    saysOpen (statusMessage status "") = false ∧
      saysPermanent (statusMessage status "") = true := by
  decide +kernel

/-- **Where the status decides the category**: a transient one exactly if its text has neither a
permanent keyword nor that of an open circuit breaker, a permanent one exactly if its text does not
have the latter. Text that is added to a transient error makes it permanent exactly if it brings in
a permanent keyword, and no open circuit breaker. -/
theorem status_decides_iff (kind : ExcKind) (hkind : kind ≠ .circuitBreakerOpenError)
    (text : String) :
    (∀ status ∈ [429, 500, 502, 503, 504],
      (categorizeError ⟨kind, statusMessage status text⟩ = .transient ↔
        saysOpen text = false ∧ saysPermanent text = false)) ∧
    (∀ status ∈ [400, 401, 403, 404, 422],
      (categorizeError ⟨kind, statusMessage status text⟩ = .permanent ↔ saysOpen text = false)) ∧
    ∀ message, categorizeError ⟨kind, message⟩ = .transient →
      (categorizeError ⟨kind, message ++ text⟩ ≠ .permanent ↔
        saysOpen (message ++ text) = true ∨ saysPermanent (message ++ text) = false) := by
  refine ⟨fun status hstatus => ?_, fun status hstatus => ?_, fun message hmessage => ?_⟩
  · obtain ⟨hopen, hpermanent, htransient⟩ := transient_status status hstatus
    have htext : saysTransient (statusMessage status text) = true := by
      have happend := saysTransient_append htransient text
      rwa [show statusMessage status "" ++ text = statusMessage status text by
        simp [statusMessage]] at happend
    rw [categorizeError_eq hkind, saysOpen_statusMessage, saysPermanent_statusMessage, hopen,
      hpermanent, htext]
    cases saysOpen text <;> cases saysPermanent text <;> simp
  · obtain ⟨hopen, hpermanent⟩ := permanent_status status hstatus
    rw [categorizeError_eq hkind, saysOpen_statusMessage, saysPermanent_statusMessage, hopen,
      hpermanent]
    cases saysOpen text <;> simp
  · -- what made the error transient is still there
    have hstill : saysTransient (message ++ text) = true ∨ kind = .timeoutError ∨
        kind = .connectionError := by
      by_contra hnone
      push Not at hnone
      have hnot : ¬ saysTransient message = true := fun h => hnone.1 (saysTransient_append h text)
      rw [categorizeError_eq hkind] at hmessage
      simp only [hnot, hnone.2.1, hnone.2.2, or_self] at hmessage
      split at hmessage
      · cases hmessage
      · split at hmessage <;> cases hmessage
    rw [categorizeError_eq hkind, if_pos hstill]
    cases saysOpen (message ++ text) <;> cases saysPermanent (message ++ text) <;> simp

theorem status_decides_iff_gateway :
    categorizeError ⟨.other, statusMessage 502 "Bad Gateway"⟩ = .transient ↔
      saysOpen "Bad Gateway" = false ∧ saysPermanent "Bad Gateway" = false :=
  (status_decides_iff .other (by decide) "Bad Gateway").1 502 (by decide)

/-- The number of an order overrides the status. -/
theorem not_status_decides_order :
    categorizeError ⟨.other, statusMessage 503 "order 14001 is locked"⟩ = .permanent := by
  decide +kernel

end FlowMesh
