import MoonlightPsp.Identity.Digest
import MoonlightPsp.Lib.GuardedRun

/-!
# The client's identity

Three files hold the identity: the certificate, the private key and the unique id.
Every write of a file can fail, before it opened the file or behind a part of the text.
The static variables are lost when the process is restarted.
-/

namespace MoonlightPsp.Identity

open Rtsp

/-! ## Files -/

/-- How a write ends: the file was not opened, or so much of the text was stored. -/
inductive WriteResult where
  | notOpened
  | stored (count : ℕ)

/-- `write_file_full`: whether it succeeds, and the file after it. -/
def writeFileFull (file : Option Text) (buf : Text) : WriteResult → Bool × Option Text
  | .notOpened => (false, file)
  | .stored count => (decide (buf.length ≤ count), some (buf.take count))

/-- `read_file_full`. -/
def readFileFull (file : Option Text) (maxLen : ℕ) : Option Text :=
  file.map fun content => content.take (maxLen - 1)

/-- `is_hex_char`. -/
def isHexChar (c : Char) : Bool :=
  ('0' ≤ c && c ≤ '9') || ('a' ≤ c && c ≤ 'f') || ('A' ≤ c && c ≤ 'F')

/-- `is_valid_uid_16_hex`. -/
def isValidUid16Hex (uid : Text) : Bool := uid.length == 16 && uid.all isHexChar

/-- `uid_to_uppercase`. -/
def uidToUppercase (uid : Text) : Text :=
  uid.map fun c => if 'a' ≤ c ∧ c ≤ 'f' then Char.ofNat (c.toNat - 97 + 65) else c

/-- `load_uid_from_file`. -/
def loadUidFromFile (file : Option Text) : Option Text :=
  (readFileFull file 32).bind fun tmp =>
    if tmp = [] then none
    else
      let tmp := tmp.takeWhile (· ≠ '\n')
      if isValidUid16Hex tmp then some (uidToUppercase (tmp.take 16)) else none

/-! ## State -/

/-- A text in PEM form, as it fits into the buffers that it is made in. -/
structure Pem where
  text : Text
  notEmpty : text ≠ []
  fits : text.length ≤ 2047

/-- A call of `generate_cert_and_key`: the id it was made for and what it made. -/
structure Generation where
  uid : Text
  cert : Pem
  key : Pem

/-- The files, the static variables, and the generations so far. -/
structure IdentityState where
  certFile : Option Text
  keyFile : Option Text
  uidFile : Option Text
  uid : Text
  uuid : Text
  certHex : Text
  keyPem : Text
  loaded : Bool
  generations : List Generation

/-- Before the first launch. -/
def IdentityState.fresh : IdentityState where
  certFile := none
  keyFile := none
  uidFile := none
  uid := []
  uuid := []
  certHex := []
  keyPem := []
  loaded := false
  generations := []

/-- `LEGACY_UID_VALUE`. -/
def legacyUidValue : Text := "0123456789ABCDEF".toList

/-- What `client_identity_ensure` meets. -/
structure EnsureEnv where
  /-- The device address and the clocks. -/
  seed : List UInt8
  /-- The certificate and the key that are made for an id, if they are made. -/
  keygen : Text → Option (Pem × Pem)
  certWrite : WriteResult
  keyWrite : WriteResult
  uidWrite : WriteResult
  legacyWrite : WriteResult

/-! ## Operations -/

/-- `generate_cert_and_key`: the id's file is written last, and nobody looks whether that
succeeds. -/
def generateCertAndKey (e : EnsureEnv) (s : IdentityState) : Bool × IdentityState :=
  match e.keygen s.uid with
  | none => (false, s)
  | some (cert, key) =>
      let s := { s with generations := s.generations ++ [(⟨s.uid, cert, key⟩ : Generation)] }
      let (ok, file) := writeFileFull s.certFile cert.text e.certWrite
      let s := { s with certFile := file }
      if !ok then (false, s)
      else
        let (ok, file) := writeFileFull s.keyFile key.text e.keyWrite
        let s := { s with keyFile := file }
        if !ok then (false, s)
        else
          let (_, file) := writeFileFull s.uidFile s.uid e.uidWrite
          (true, { s with uidFile := file })

/-- The end of `client_identity_ensure`: the files are read, and the id is put out. -/
def loadIdentity (s : IdentityState) : Option Text × IdentityState :=
  match readFileFull s.certFile 2048 with
  | some (c :: cert) =>
      let s := { s with certHex := bytesToHexLite (c :: cert) }
      match readFileFull s.keyFile 2048 with
      | none => (none, s)
      | some [] => (none, { s with keyPem := [] })
      | some (k :: key) =>
          (some (s.uid.take 16), { s with
            keyPem := k :: key
            loaded := true })
  | _ => (none, s)

/-- Whether a certificate and a key are needed. -/
def IdentityState.needGenerate (s : IdentityState) : Bool :=
  s.certFile.isNone || s.keyFile.isNone

/-- The start of `client_identity_ensure`: the id is found or made. -/
def ensureUid (e : EnsureEnv) (s : IdentityState) : IdentityState :=
  let s :=
    if s.uid ≠ [] then s
    else
      match loadUidFromFile s.uidFile with
      | some uid => { s with uid := uid }
      | none =>
          if s.needGenerate then s
          else
            { s with
              uid := legacyUidValue
              uidFile := (writeFileFull s.uidFile legacyUidValue e.legacyWrite).2 }
  if s.uid = [] then { s with uid := generateUid e.seed } else s

/-- `client_identity_ensure`, with the id that it puts out when it returns 0. -/
def clientIdentityEnsure (e : EnsureEnv) (s : IdentityState) :
    Option Text × IdentityState :=
  let needGenerate := s.needGenerate
  let s := ensureUid e s
  let s := { s with uuid := generateUuid s.uid }
  if needGenerate then
    let (ok, s) := generateCertAndKey e s
    if ok then loadIdentity s else (none, s)
  else loadIdentity s

/-- `client_identity_reset`; the UUID is left. -/
def clientIdentityReset (s : IdentityState) : IdentityState :=
  { s with
    certFile := none
    keyFile := none
    uidFile := none
    uid := []
    certHex := []
    keyPem := []
    loaded := false }

/-- `client_identity_get_uid`. -/
def clientIdentityGetUid (seed : List UInt8) (s : IdentityState) : Text × IdentityState :=
  if s.uid = [] then
    let uid := (loadUidFromFile s.uidFile).getD (generateUid seed)
    (uid, { s with uid := uid })
  else (s.uid, s)

/-- `client_identity_get_uuid`. -/
def clientIdentityGetUuid (seed : List UInt8) (s : IdentityState) : Text × IdentityState :=
  if s.uuid = [] then
    let (uid, s) := clientIdentityGetUid seed s
    (generateUuid uid, { s with uuid := generateUuid uid })
  else (s.uuid, s)

/-- A restart of the process. -/
def IdentityState.restart (s : IdentityState) : IdentityState :=
  { s with
    uid := []
    uuid := []
    certHex := []
    keyPem := []
    loaded := false }

/-! ## Runs -/

/-- What can happen to the identity. -/
inductive IdentityOp where
  | ensure (e : EnsureEnv)
  | reset
  | getUid (seed : List UInt8)
  | getUuid (seed : List UInt8)
  | restart

/-- The state after an operation. -/
def IdentityState.step (s : IdentityState) : IdentityOp → IdentityState
  | .ensure e => (clientIdentityEnsure e s).2
  | .reset => clientIdentityReset s
  | .getUid seed => (clientIdentityGetUid seed s).2
  | .getUuid seed => (clientIdentityGetUuid seed s).2
  | .restart => s.restart

end MoonlightPsp.Identity
