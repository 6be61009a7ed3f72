import FlowMesh.Auth.Envelope
import FlowMesh.Python.Base64
import FlowMesh.Python.JsonTexts

/-!
# Envelope encryption on bytes

`EnvelopeCrypto` (`flowmesh_auth/crypto.py`) down to the bytes: UTF-8 texts, JSON texts, a nonce
of twelve bytes before the ciphertext, and base64 around both. Only AES-GCM is a parameter, which
is ideal if a ciphertext opens as what was encrypted and as nothing else (`AesGcm.Ideal`).

A secret comes back under its tenant and its connection, and under no other ones
(`secret_bound`). The texts that `Envelope` takes for granted are an instance
(`AesGcm.aead_ideal`).
-/

namespace FlowMesh.Crypto

open Python

/-! ## Bytes -/

/-- Bytes. -/
abbrev Bytes := List UInt8

/-- `s.encode("utf-8")`. -/
def encodeUtf8 (s : String) : Bytes := s.toUTF8.data.toList

/-- `b.decode("utf-8")`. -/
def decodeUtf8 (b : Bytes) : Except PyError String :=
  match String.fromUTF8? ⟨b.toArray⟩ with
  | some s => .ok s
  | none => .error ⟨.valueError, "'utf-8' codec can't decode bytes"⟩

theorem decodeUtf8_encodeUtf8 (s : String) : decodeUtf8 (encodeUtf8 s) = .ok s := by
  have hbytes : String.fromUTF8? ⟨(encodeUtf8 s).toArray⟩ = some s := dif_pos s.isValidUTF8
  rw [decodeUtf8, hbytes]

theorem encodeUtf8_inj {s s' : String} : encodeUtf8 s = encodeUtf8 s' ↔ s = s' := by
  constructor
  · intro h
    have hdecode := decodeUtf8_encodeUtf8 s
    rw [h, decodeUtf8_encodeUtf8] at hdecode
    exact (Except.ok.inj hdecode).symm
  · exact congrArg encodeUtf8

/-! ## AES-GCM -/

/-- `AESGCM`. -/
structure AesGcm where
  encrypt : (key nonce data aad : Bytes) → Bytes
  decrypt : (key nonce ciphertext aad : Bytes) → Except PyError Bytes

/-- A ciphertext opens as what was encrypted only, and belongs to one key, nonce and associated
data. -/
structure AesGcm.Ideal (a : AesGcm) : Prop where
  decrypt_eq_ok : ∀ key nonce ciphertext aad data,
    a.decrypt key nonce ciphertext aad = .ok data ↔ ciphertext = a.encrypt key nonce data aad
  encrypt_inj : ∀ key nonce data aad key' nonce' data' aad',
    a.encrypt key nonce data aad = a.encrypt key' nonce' data' aad' →
      key = key' ∧ nonce = nonce' ∧ data = data' ∧ aad = aad'

/-- The check of the constructor. -/
def checkKey (key : Bytes) : Except PyError Unit :=
  if key.length = 16 ∨ key.length = 24 ∨ key.length = 32 then .ok ()
  else .error ⟨.valueError, "AESGCM key must be 128, 192, or 256 bits."⟩

/-- What `os.urandom(12)` gives. -/
structure Nonce where
  bytes : Bytes
  length_bytes : bytes.length = 12

section Ideal

variable {a : AesGcm} (h : a.Ideal)

include h

theorem AesGcm.Ideal.decrypt_encrypt (key nonce data aad : Bytes) :
    a.decrypt key nonce (a.encrypt key nonce data aad) aad = .ok data :=
  (h.decrypt_eq_ok _ _ _ _ _).2 rfl

/-- Under other associated data a ciphertext does not open. -/
theorem AesGcm.Ideal.decrypt_of_ne {key nonce data aad aad' : Bytes} (hne : aad' ≠ aad) :
    ∃ e, a.decrypt key nonce (a.encrypt key nonce data aad) aad' = .error e := by
  cases hopen : a.decrypt key nonce (a.encrypt key nonce data aad) aad' with
  | error e => exact ⟨e, rfl⟩
  | ok data' =>
    have heq := h.encrypt_inj _ _ _ _ _ _ _ _ ((h.decrypt_eq_ok _ _ _ _ _).1 hopen)
    exact absurd heq.2.2.2.symm hne

end Ideal

/-! ### A cipher that shows everything -/

/-- Bytes behind their number. -/
def block (b : Bytes) : Bytes := List.replicate b.length 1 ++ 0 :: b

theorem block_append_inj {b b' rest rest' : Bytes} (h : block b ++ rest = block b' ++ rest') :
    b = b' ∧ rest = rest' := by
  have hnumber : ∀ (n n' : ℕ) (l l' : Bytes),
      List.replicate n 1 ++ 0 :: l = List.replicate n' 1 ++ 0 :: l' → n = n' ∧ l = l' := by
    intro n
    induction n with
    | zero =>
      intro n' l l' heq
      cases n' with
      | zero => simpa using heq
      | succ n' => simp [List.replicate_succ] at heq
    | succ n ih =>
      intro n' l l' heq
      cases n' with
      | zero => simp [List.replicate_succ] at heq
      | succ n' =>
        simp only [List.replicate_succ, List.cons_append, List.cons.injEq, true_and] at heq
        obtain ⟨hn, hl⟩ := ih n' l l' heq
        exact ⟨by rw [hn], hl⟩
  unfold block at h
  rw [List.append_assoc, List.append_assoc, List.cons_append, List.cons_append] at h
  obtain ⟨hlength, hbytes⟩ := hnumber _ _ _ _ h
  exact List.append_inj hbytes hlength

/-- Key, nonce and associated data before the message, all in the clear. -/
def AesGcm.transparent : AesGcm where
  encrypt key nonce data aad := block key ++ (block nonce ++ (block aad ++ data))
  decrypt key nonce ciphertext aad :=
    let front := block key ++ (block nonce ++ block aad)
    if front <+: ciphertext then .ok (ciphertext.drop front.length)
    else .error ⟨.other, "InvalidTag"⟩

theorem AesGcm.transparent_ideal : AesGcm.transparent.Ideal where
  decrypt_eq_ok key nonce ciphertext aad data := by
    have hencrypt : AesGcm.transparent.encrypt key nonce data aad =
        block key ++ (block nonce ++ block aad) ++ data := by simp [AesGcm.transparent]
    rw [hencrypt]
    simp only [AesGcm.transparent]
    constructor
    · intro h
      split_ifs at h with hfront
      obtain ⟨rest, rfl⟩ := hfront
      rw [List.drop_left] at h
      rw [Except.ok.inj h]
    · rintro rfl
      rw [if_pos (List.prefix_append _ _), List.drop_left]
  encrypt_inj key nonce data aad key' nonce' data' aad' h := by
    obtain ⟨hkey, h⟩ := block_append_inj h
    obtain ⟨hnonce, h⟩ := block_append_inj h
    obtain ⟨haad, hdata⟩ := block_append_inj h
    exact ⟨hkey, hnonce, hdata, haad⟩

/-! ## The service -/

/-- `EnvelopeCrypto`: the key is checked when it is made. `float` is the interpreter's
`float(text)`. -/
structure EnvelopeCrypto where
  aesgcm : AesGcm
  float : String → PyFloat
  masterKek : Bytes
  length_masterKek : masterKek.length = 32

/-- `base64.b64encode(nonce + ciphertext).decode("utf-8")`. -/
def framed (nonce : Nonce) (ciphertext : Bytes) : String :=
  String.ofList (b64encode (nonce.bytes ++ ciphertext))

/-- `raw = base64.b64decode(text)`, then `raw[:12]` and `raw[12:]`. -/
def unframed (text : String) : Except PyError (Bytes × Bytes) := do
  let raw ← b64decode text.toList
  return (raw.take 12, raw.drop 12)

theorem unframed_framed (nonce : Nonce) (ciphertext : Bytes) :
    unframed (framed nonce ciphertext) = .ok (nonce.bytes, ciphertext) := by
  have htake : (nonce.bytes ++ ciphertext).take 12 = nonce.bytes :=
    List.take_left' nonce.length_bytes
  have hdrop : (nonce.bytes ++ ciphertext).drop 12 = ciphertext :=
    List.drop_left' nonce.length_bytes
  rw [unframed, framed, String.toList_ofList, b64decode_b64encode]
  show Except.ok ((nonce.bytes ++ ciphertext).take 12, (nonce.bytes ++ ciphertext).drop 12) = _
  rw [htake, hdrop]

namespace EnvelopeCrypto

variable (c : EnvelopeCrypto)

/-- `wrap_dek`, with the nonce that it draws. -/
def wrapDek (nonce : Nonce) (dek : Bytes) (tenantId : String) : Except PyError String := do
  checkKey c.masterKek
  let aad := encodeUtf8 tenantId
  let ciphertext := c.aesgcm.encrypt c.masterKek nonce.bytes dek aad
  return framed nonce ciphertext

/-- `unwrap_dek`. -/
def unwrapDek (wrappedDekB64 tenantId : String) : Except PyError Bytes := do
  let (nonce, ciphertext) ← unframed wrappedDekB64
  let aad := encodeUtf8 tenantId
  checkKey c.masterKek
  c.aesgcm.decrypt c.masterKek nonce ciphertext aad

/-- `encrypt_secret`, with the nonce that it draws. -/
def encryptSecret (nonce : Nonce) (dek : Bytes) (secretData : List (String × Data))
    (connectionId : String) : Except PyError String := do
  checkKey dek
  let plaintext ← jsonDumps .ascii (.dict secretData)
  let aad := encodeUtf8 connectionId
  let ciphertext := c.aesgcm.encrypt dek nonce.bytes (encodeUtf8 plaintext) aad
  return framed nonce ciphertext

/-- `decrypt_secret`. -/
def decryptSecret (dek : Bytes) (encryptedB64 connectionId : String) : Except PyError Data := do
  let (nonce, ciphertext) ← unframed encryptedB64
  let aad := encodeUtf8 connectionId
  checkKey dek
  let plaintext ← c.aesgcm.decrypt dek nonce ciphertext aad
  jsonLoads c.float (← decodeUtf8 plaintext)

variable {c} {nonce : Nonce} {dek ciphertext : Bytes} {secretData : List (String × Data)}

theorem wrapDek_eq (tenantId : String) : c.wrapDek nonce dek tenantId =
    .ok (framed nonce (c.aesgcm.encrypt c.masterKek nonce.bytes dek (encodeUtf8 tenantId))) := by
  have hkek : checkKey c.masterKek = .ok () := by simp [checkKey, c.length_masterKek]
  rw [wrapDek, hkek]
  rfl

/-- Unwrapping what is framed is opening it under the tenant. -/
theorem unwrapDek_framed (tenantId : String) : c.unwrapDek (framed nonce ciphertext) tenantId =
    c.aesgcm.decrypt c.masterKek nonce.bytes ciphertext (encodeUtf8 tenantId) := by
  have hkek : checkKey c.masterKek = .ok () := by simp [checkKey, c.length_masterKek]
  rw [unwrapDek, unframed_framed, hkek]
  rfl

/-- Decrypting what is framed is opening it under the connection, and reading its text. -/
theorem decryptSecret_framed (hdek : checkKey dek = .ok ()) (connectionId : String) :
    c.decryptSecret dek (framed nonce ciphertext) connectionId =
      (c.aesgcm.decrypt dek nonce.bytes ciphertext (encodeUtf8 connectionId)).bind fun plaintext =>
        (decodeUtf8 plaintext).bind (jsonLoads c.float) := by
  rw [decryptSecret, unframed_framed, hdek]
  rfl

/-- A secret that is JSON has a text that reads as the secret, and that is what is encrypted. -/
theorem encryptSecret_eq (hdek : checkKey dek = .ok ()) (hknown : (Data.dict secretData).Serialisable)
    (hdistinct : (Data.dict secretData).Distinct)
    (hlegible : (Data.dict secretData).Legible c.float) (connectionId : String) :
    ∃ text, jsonLoads c.float text = .ok (.dict secretData) ∧
      ∀ nonce, c.encryptSecret nonce dek secretData connectionId = .ok (framed nonce
        (c.aesgcm.encrypt dek nonce.bytes (encodeUtf8 text) (encodeUtf8 connectionId))) := by
  have hloads := jsonLoads_jsonDumps .ascii hknown hdistinct hlegible
  cases hdumps : jsonDumps .ascii (.dict secretData) with
  | error e => rw [hdumps] at hloads; cases hloads
  | ok text =>
    rw [hdumps] at hloads
    refine ⟨text, hloads, fun nonce => ?_⟩
    rw [encryptSecret, hdek, hdumps]
    rfl

end EnvelopeCrypto

/-- **A secret is bound to its tenant and its connection.** Under a master key of 32 bytes and any
data key, whatever the nonces: the secret comes back, the data key is unwrapped for no other
tenant, and the secret decrypted for no other connection. -/
theorem secret_bound (c : EnvelopeCrypto) (hideal : c.aesgcm.Ideal) {dek : Bytes}
    (hdek : checkKey dek = .ok ()) {secretData : List (String × Data)}
    (hknown : (Data.dict secretData).Serialisable) (hdistinct : (Data.dict secretData).Distinct)
    (hlegible : (Data.dict secretData).Legible c.float) (nonce nonce' : Nonce)
    (tenantId connectionId : String) :
    ∃ wrappedDek encrypted, c.wrapDek nonce dek tenantId = .ok wrappedDek ∧
      c.encryptSecret nonce' dek secretData connectionId = .ok encrypted ∧
      ((c.unwrapDek wrappedDek tenantId).bind fun dek =>
        c.decryptSecret dek encrypted connectionId) = .ok (.dict secretData) ∧
      (∀ tenantId' ≠ tenantId, ∃ e, c.unwrapDek wrappedDek tenantId' = .error e) ∧
      ∀ connectionId' ≠ connectionId, ∃ e, c.decryptSecret dek encrypted connectionId' = .error e := by
  obtain ⟨text, hloads, hencrypted⟩ :=
    EnvelopeCrypto.encryptSecret_eq hdek hknown hdistinct hlegible connectionId
  refine ⟨_, _, EnvelopeCrypto.wrapDek_eq tenantId, hencrypted nonce', ?_,
    fun tenantId' hne => ?_, fun connectionId' hne => ?_⟩
  · rw [EnvelopeCrypto.unwrapDek_framed, hideal.decrypt_encrypt]
    show c.decryptSecret dek _ connectionId = _
    rw [EnvelopeCrypto.decryptSecret_framed hdek, hideal.decrypt_encrypt]
    show (decodeUtf8 (encodeUtf8 text)).bind (jsonLoads c.float) = _
    rw [decodeUtf8_encodeUtf8]
    exact hloads
  · rw [EnvelopeCrypto.unwrapDek_framed]
    exact hideal.decrypt_of_ne fun heq => hne (encodeUtf8_inj.1 heq)
  · have hfails : ∃ e, c.aesgcm.decrypt dek nonce'.bytes (c.aesgcm.encrypt dek nonce'.bytes
        (encodeUtf8 text) (encodeUtf8 connectionId)) (encodeUtf8 connectionId') = .error e :=
      hideal.decrypt_of_ne fun heq => hne (encodeUtf8_inj.1 heq)
    obtain ⟨e, he⟩ := hfails
    rw [EnvelopeCrypto.decryptSecret_framed hdek, he]
    exact ⟨e, rfl⟩

/-- The credentials of a database. -/
def databaseSecret : List (String × Data) :=
  [("password", .str "pässwörd"), ("ports", .list [.int 5432, .null]),
    ("timeout", .float ⟨.finite (3 / 2), "1.5"⟩)]

/-- The service over a cipher that shows everything. -/
def transparentCrypto : EnvelopeCrypto where
  aesgcm := .transparent
  float text := ⟨.finite (3 / 2), text⟩
  masterKek := List.replicate 32 0
  length_masterKek := rfl

/-- A nonce. -/
def zeroNonce : Nonce := ⟨List.replicate 12 0, rfl⟩

theorem isDigits_singleton {c : Char} (h : c.isDigit = true) : IsDigits [c] where
  ne_nil := List.cons_ne_nil _ _
  digit c' hc' := by rwa [List.mem_singleton.1 hc']

theorem databaseSecret_legible :
    (Data.dict databaseSecret).Legible transparentCrypto.float := by
  have hfloat : PyFloat.Legible transparentCrypto.float ⟨.finite (3 / 2), "1.5"⟩ := by
    refine ⟨_, ⟨['1'], ['.', '5'], []⟩, rfl, ⟨?_, ?_, Or.inl rfl⟩, by simp, by decide +kernel, rfl⟩
    · exact ⟨[], ['1'], rfl, Or.inl rfl, isDigits_singleton rfl, by simp⟩
    · exact Or.inr ⟨['5'], rfl, isDigits_singleton rfl⟩
  have hports : ∀ v ∈ [Data.int 5432, .null],
      v.Serialisable ∧ v.Legible transparentCrypto.float := by
    simp only [List.forall_mem_cons, List.not_mem_nil, false_imp_iff, implies_true, and_true]
    exact ⟨⟨rfl, legible_token rfl trivial⟩, ⟨rfl, legible_token rfl trivial⟩⟩
  apply legible_dict
  simp only [databaseSecret, List.forall_mem_cons, List.not_mem_nil, false_imp_iff, implies_true,
    and_true]
  exact ⟨⟨rfl, legible_token rfl trivial⟩, ⟨rfl, legible_list hports⟩,
    ⟨rfl, legible_token rfl hfloat⟩⟩

theorem secret_bound_database : ∃ wrappedDek,
    transparentCrypto.wrapDek zeroNonce (List.replicate 32 7) "acme" = .ok wrappedDek ∧
      ∃ e, transparentCrypto.unwrapDek wrappedDek "rival" = .error e := by
  have hdek : checkKey (List.replicate 32 7) = .ok () := by simp [checkKey]
  have hknown : (Data.dict databaseSecret).Serialisable := rfl
  have hdistinct : (Data.dict databaseSecret).Distinct := by
    simp [databaseSecret, Data.Distinct, Data.DistinctFields, Data.DistinctField,
      Data.DistinctItems]
  have hbound := secret_bound transparentCrypto AesGcm.transparent_ideal hdek hknown hdistinct
    databaseSecret_legible zeroNonce zeroNonce "acme" "conn_1"
  obtain ⟨wrappedDek, -, hwrapped, -, -, hother, -⟩ := hbound
  exact ⟨wrappedDek, hwrapped, hother "rival" (by decide)⟩

/-! ## The texts of `Envelope` -/

/-- Keys and messages that are texts, under this cipher. -/
def AesGcm.aead (a : AesGcm) (draw : String → Nonce) (dumps : Json → String)
    (loads : String → Except PyError Json) : Aead where
  encrypt key nonce data aad :=
    framed (draw nonce)
      (a.encrypt (encodeUtf8 key) (draw nonce).bytes (encodeUtf8 data) (encodeUtf8 aad))
  decrypt key text aad := do
    let (nonce, ciphertext) ← unframed text
    decodeUtf8 (← a.decrypt (encodeUtf8 key) nonce ciphertext (encodeUtf8 aad))
  dumps := dumps
  loads := loads

/-- What `Envelope` assumes of its primitives holds over an ideal cipher. -/
theorem AesGcm.aead_ideal {a : AesGcm} (h : a.Ideal) (draw : String → Nonce)
    (dumps : Json → String) (loads : String → Except PyError Json) :
    (a.aead draw dumps loads).Ideal := by
  intro key nonce data aad
  simp only [AesGcm.aead, unframed_framed]
  show (a.decrypt _ _ _ _).bind decodeUtf8 = _
  rw [h.decrypt_encrypt]
  exact decodeUtf8_encodeUtf8 data

end FlowMesh.Crypto
