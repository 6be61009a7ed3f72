import FlowMesh.Python.Value

/-!
# Envelope encryption

`EnvelopeCrypto` of `flowmesh_auth/crypto.py`: the credentials of a connection are encrypted under
a data key of their own, and the data key under the master key; the connection and the tenant are
the associated data. The primitives below it are a parameter (`Aead`).
-/

namespace FlowMesh

open Python

/-- What `EnvelopeCrypto` is built from: AES-GCM, with base64 around the nonce and the ciphertext,
and `json.dumps` and `json.loads`. Keys and nonces are texts. -/
structure Aead where
  encrypt : (key nonce data aad : String) → String
  decrypt : (key text aad : String) → Except PyError String
  dumps : Json → String
  loads : String → Except PyError Json

/-- What was encrypted comes back under the same key and the same associated data. -/
def Aead.Ideal (a : Aead) : Prop :=
  ∀ key nonce data aad, a.decrypt key (a.encrypt key nonce data aad) aad = .ok data

/-- The value is read back from its JSON text. -/
def Aead.Reads (a : Aead) (v : Json) : Prop := a.loads (a.dumps v) = .ok v

/-- `EnvelopeCrypto`. -/
structure EnvelopeCrypto extends Aead where
  masterKek : String

namespace EnvelopeCrypto

variable (c : EnvelopeCrypto)

/-- `wrap_dek`, with the nonce that it draws. -/
def wrapDek (nonce dek tenantId : String) : String := c.encrypt c.masterKek nonce dek tenantId

/-- `unwrap_dek`. -/
def unwrapDek (wrappedDek tenantId : String) : Except PyError String :=
  c.decrypt c.masterKek wrappedDek tenantId

/-- `encrypt_secret`, with the nonce that it draws. -/
def encryptSecret (nonce dek : String) (secretData : Json) (connectionId : String) : String :=
  c.encrypt dek nonce (c.dumps secretData) connectionId

/-- `decrypt_secret`. -/
def decryptSecret (dek encrypted connectionId : String) : Except PyError Json := do
  c.loads (← c.decrypt dek encrypted connectionId)

variable {c}

theorem unwrapDek_wrapDek (h : c.Ideal) (nonce dek tenantId : String) :
    c.unwrapDek (c.wrapDek nonce dek tenantId) tenantId = .ok dek :=
  h _ _ _ _

theorem decryptSecret_encryptSecret (h : c.Ideal) {secretData : Json} (hreads : c.Reads secretData)
    (nonce dek connectionId : String) :
    c.decryptSecret dek (c.encryptSecret nonce dek secretData connectionId) connectionId =
      .ok secretData := by
  unfold decryptSecret encryptSecret
  rw [h]
  exact hreads

end EnvelopeCrypto

/-! ### An instance -/

/-- What the text of a message begins with, under a key and associated data. -/
def sealOf (key aad : String) : List Char := (key ++ "/" ++ aad ++ "/").toList

/-- Messages in the clear, that open under their key and associated data only; the values are
objects with one text, the password. -/
def sealedAead : Aead where
  encrypt key _ data aad := String.ofList (sealOf key aad ++ data.toList)
  decrypt key text aad :=
    if sealOf key aad <+: text.toList then
      .ok (String.ofList (text.toList.drop (sealOf key aad).length))
    else .error ⟨.other, "InvalidTag"⟩
  dumps v := match v with
    | .obj [("password", .str password)] => "\x7b\"password\": \"" ++ password ++ "\"\x7d"
    | _ => ""
  loads text :=
    .ok (.obj [("password", .str (String.ofList (text.toList.drop 14).dropLast.dropLast))])

theorem sealedAead_ideal : sealedAead.Ideal := by
  intro key nonce data aad
  simp [sealedAead]

end FlowMesh
