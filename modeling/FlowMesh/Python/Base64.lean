import FlowMesh.Python.Value

/-!
# Base64

`base64.b64encode` and `base64.b64decode`. Decoding goes over the characters one by one
(`binascii.a2b_base64`): it ignores what is not in the alphabet, and stops at the padding that
closes a group of four.

`b64decode_b64encode` is the round trip: a group of four characters gives its three bytes back
(`a2bBase64_b64encode`), and the last group stops at its padding.
-/

namespace Python

/-- The alphabet. -/
def base64Alphabet : List Char :=
  "ABCDEFGHIJKLMNOPQRSTUVWXYZabcdefghijklmnopqrstuvwxyz0123456789+/".toList

/-- The character of six bits. -/
def base64Char (n : ℕ) : Char := base64Alphabet.getD n '='

/-- `table_a2b_base64`. -/
def base64Value (c : Char) : Option ℕ := base64Alphabet.idxOf? c

/-- `base64.b64encode`. -/
def b64encode : List UInt8 → List Char
  | a :: b :: c :: rest =>
    base64Char (a.toNat / 4) :: base64Char (a.toNat % 4 * 16 + b.toNat / 16) ::
      base64Char (b.toNat % 16 * 4 + c.toNat / 64) :: base64Char (c.toNat % 64) :: b64encode rest
  | [a, b] =>
    [base64Char (a.toNat / 4), base64Char (a.toNat % 4 * 16 + b.toNat / 16),
      base64Char (b.toNat % 16 * 4), '=']
  | [a] => [base64Char (a.toNat / 4), base64Char (a.toNat % 4 * 16), '=', '=']
  | [] => []

/-- `binascii.a2b_base64`, from a place in a group of four, with the bits left from the character
before. -/
def a2bBase64 (quadPos leftchar pads : ℕ) : List Char → Option (List UInt8)
  | [] => if quadPos = 0 then some [] else none
  | c :: cs =>
    if c = '=' then
      if 2 ≤ quadPos then
        if 4 ≤ quadPos + (pads + 1) then some [] else a2bBase64 quadPos leftchar (pads + 1) cs
      else a2bBase64 quadPos leftchar pads cs
    else
      match base64Value c with
      | none => a2bBase64 quadPos leftchar pads cs
      | some v =>
        if quadPos = 0 then a2bBase64 1 v 0 cs
        else if quadPos = 1 then
          (a2bBase64 2 (v % 16) 0 cs).map (UInt8.ofNat (leftchar * 4 + v / 16) :: ·)
        else if quadPos = 2 then
          (a2bBase64 3 (v % 4) 0 cs).map (UInt8.ofNat (leftchar * 16 + v / 4) :: ·)
        else (a2bBase64 0 0 0 cs).map (UInt8.ofNat (leftchar * 64 + v) :: ·)

/-- `base64.b64decode`. -/
def b64decode (text : List Char) : Except PyError (List UInt8) :=
  match a2bBase64 0 0 0 text with
  | some raw => .ok raw
  | none => .error ⟨.valueError, "Incorrect padding"⟩

example : b64encode [77, 97, 110, 33] = "TWFuIQ==".toList := by decide +kernel

/-! ## The round trip -/

theorem base64Value_base64Char :
    ∀ n < 64, base64Value (base64Char n) = some n ∧ base64Char n ≠ '=' := by
  decide +kernel

section Decode

variable {v : ℕ} (hv : v < 64) (cs : List Char)

include hv

theorem a2bBase64_first (pads : ℕ) :
    a2bBase64 0 0 pads (base64Char v :: cs) = a2bBase64 1 v 0 cs := by
  obtain ⟨hvalue, hne⟩ := base64Value_base64Char v hv
  rw [a2bBase64, if_neg hne, hvalue]
  rfl

theorem a2bBase64_second (leftchar pads : ℕ) : a2bBase64 1 leftchar pads (base64Char v :: cs) =
    (a2bBase64 2 (v % 16) 0 cs).map (UInt8.ofNat (leftchar * 4 + v / 16) :: ·) := by
  obtain ⟨hvalue, hne⟩ := base64Value_base64Char v hv
  rw [a2bBase64, if_neg hne, hvalue]
  rfl

theorem a2bBase64_third (leftchar pads : ℕ) : a2bBase64 2 leftchar pads (base64Char v :: cs) =
    (a2bBase64 3 (v % 4) 0 cs).map (UInt8.ofNat (leftchar * 16 + v / 4) :: ·) := by
  obtain ⟨hvalue, hne⟩ := base64Value_base64Char v hv
  rw [a2bBase64, if_neg hne, hvalue]
  rfl

theorem a2bBase64_fourth (leftchar pads : ℕ) : a2bBase64 3 leftchar pads (base64Char v :: cs) =
    (a2bBase64 0 0 0 cs).map (UInt8.ofNat (leftchar * 64 + v) :: ·) := by
  obtain ⟨hvalue, hne⟩ := base64Value_base64Char v hv
  rw [a2bBase64, if_neg hne, hvalue]
  rfl

end Decode

/-- A byte from its parts. -/
theorem ofNat_eq {a : UInt8} {n : ℕ} (h : n = a.toNat) : UInt8.ofNat n = a := by
  rw [h, UInt8.ofNat_toNat]

/-- What is written for bytes is read from the start of a group. -/
theorem a2bBase64_b64encode (raw : List UInt8) : a2bBase64 0 0 0 (b64encode raw) = some raw := by
  have hlt : ∀ a : UInt8, a.toNat < 256 := fun a => a.toNat_lt
  induction raw using b64encode.induct with
  | case1 a b c rest ih =>
    have ha := hlt a
    have hb := hlt b
    have hc := hlt c
    rw [b64encode, a2bBase64_first (by omega), a2bBase64_second (by omega),
      a2bBase64_third (by omega), a2bBase64_fourth (by omega), ih]
    simp only [Option.map_some, Option.some.injEq, List.cons.injEq, and_true]
    exact ⟨ofNat_eq (by omega), ofNat_eq (by omega), ofNat_eq (by omega)⟩
  | case2 a b =>
    have ha := hlt a
    have hb := hlt b
    rw [b64encode, a2bBase64_first (by omega), a2bBase64_second (by omega),
      a2bBase64_third (by omega)]
    have hpadding : ∀ leftchar, a2bBase64 3 leftchar 0 ['='] = some [] := fun _ => rfl
    rw [hpadding]
    simp only [Option.map_some, Option.some.injEq, List.cons.injEq, and_true]
    exact ⟨ofNat_eq (by omega), ofNat_eq (by omega)⟩
  | case3 a =>
    have ha := hlt a
    have hpadding : ∀ leftchar, a2bBase64 2 leftchar 0 ['=', '='] = some [] := fun _ => rfl
    rw [b64encode, a2bBase64_first (by omega), a2bBase64_second (by omega), hpadding]
    simp only [Option.map_some, Option.some.injEq, List.cons.injEq, and_true]
    exact ofNat_eq (by omega)
  | case4 => rfl

theorem b64decode_b64encode (raw : List UInt8) : b64decode (b64encode raw) = .ok raw := by
  rw [b64decode, a2bBase64_b64encode]

end Python
