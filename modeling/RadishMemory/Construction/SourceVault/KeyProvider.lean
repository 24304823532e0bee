import RadishMemory.Framework.Program

/-!
# The key provider

The key of a library lives in one slot of a key store outside the library.  The store has no
operation that creates a value only when there is none: the provider reads, writes and reads back.
A `KeyStore` has the four operations of the provider's trait; each is one access, and other
accesses may come between two of them.
-/

namespace RadishMemory

/-! ## Errors -/

inductive SourceVaultErrorCode where
  | invalidMetadata
  | plaintextTooLarge
  | lengthMismatch
  | digestMismatch
  | randomSourceUnavailable
  | encryptionFailed
  | malformedCiphertext
  | authenticationFailed
  | invalidEnvelope
  | metadataMismatch
  | invalidDirectory
  | filesystemChanged
  | attemptMismatch
  | invalidKeySlot
  | keyMissing
  | keyAmbiguous
  | keyCorrupt
  | keyMetadataMismatch
  | keyReadbackMismatch
  | keyStoreLocked
  | keyStoreDenied
  | keyStoreCancelled
  | keyStoreUnavailable
  | keyStoreFailure
  | io
deriving DecidableEq, Repr

structure SourceVaultError where
  code : SourceVaultErrorCode
  reason : String
deriving DecidableEq, Repr

def failure (code : SourceVaultErrorCode) (operation : String) : SourceVaultError :=
  { code := code, reason := operation }

/-! ## Slots -/

def providerProfile : String :=
  "radishmemory.platform-key-store/1"

def validId (value pre : String) : Bool :=
  pre.toList.isPrefixOf value.toList &&
    decide ((value.toList.drop pre.length).length = 32) &&
      (value.toList.drop pre.length).all fun b => b.isDigit || ('a' ≤ b && b ≤ 'f')

structure KeySlot where
  account : String
deriving DecidableEq, Repr

def KeySlot.new (namespaceId deviceId : String) : Except SourceVaultError KeySlot := do
  require (validId namespaceId "namespace-" && validId deviceId "device-")
    (failure .invalidKeySlot "validate key slot")
  return { account := "v1:" ++ namespaceId ++ ":" ++ deviceId }

/-! ## Key values -/

def keyBytes : Nat := 32

/-- A key: exactly `keyBytes` bytes. -/
structure KeyEncryptionKey where
  bytes : List UInt8
  length_eq : bytes.length = keyBytes
deriving DecidableEq

/-- `b"rmkek1:"` -/
def valuePrefix : List UInt8 :=
  [0x72, 0x6d, 0x6b, 0x65, 0x6b, 0x31, 0x3a]

def valueBytes : Nat :=
  valuePrefix.length + keyBytes * 2

/-- `b"0123456789abcdef"` at an index below 16. -/
def hexByte (value : UInt8) : UInt8 :=
  if value < 10 then 0x30 + value else 0x61 + (value - 10)

def encodeHex (bytes : List UInt8) : List UInt8 :=
  bytes.flatMap fun (byte : UInt8) => [hexByte (byte >>> 4), hexByte (byte &&& 15)]

def encode (key : KeyEncryptionKey) : List UInt8 :=
  valuePrefix ++ encodeHex key.bytes

def digit (b : UInt8) : Option UInt8 :=
  if 0x30 ≤ b ∧ b ≤ 0x39 then some (b - 0x30)
  else if 0x61 ≤ b ∧ b ≤ 0x66 then some (b - 0x61 + 10)
  else none

/-- The bytes of a value without its prefix, two digits each. -/
def decodeHex : List UInt8 → Option (List UInt8)
  | hi :: lo :: rest => do
    let hi ← digit hi
    let lo ← digit lo
    let bytes ← decodeHex rest
    return (hi * 16 + lo) :: bytes
  | _ => some []

theorem decodeHex_length {value bytes : List UInt8} (h : decodeHex value = some bytes) :
    bytes.length = value.length / 2 := by
  induction value using decodeHex.induct generalizing bytes with
  | case1 hi lo rest ih =>
    simp only [decodeHex, Option.bind_eq_bind, Option.bind_eq_some_iff, Option.pure_def,
      Option.some.injEq] at h
    obtain ⟨_, _, _, _, tail, htail, rfl⟩ := h
    rw [List.length_cons, ih htail, List.length_cons, List.length_cons]
    omega
  | case2 value hvalue =>
    have hshort : value.length ≤ 1 := by
      rcases value with _ | ⟨a, _ | ⟨b, rest⟩⟩
      · exact Nat.zero_le 1
      · exact Nat.le_refl 1
      · exact absurd rfl (hvalue a b rest)
    rw [decodeHex] at h
    · cases h
      rw [List.length_nil]
      omega
    · exact hvalue

/-- The bytes of a value of the right length are a key. -/
theorem decodeHex_keyBytes {value bytes : List UInt8} (hlength : value.length = valueBytes)
    (h : decodeHex (value.drop valuePrefix.length) = some bytes) : bytes.length = keyBytes := by
  rw [decodeHex_length h, List.length_drop, hlength]
  rfl

def invalidKeyValue : SourceVaultError :=
  failure .keyCorrupt "decode key value"

def decode (value : List UInt8) : Except SourceVaultError KeyEncryptionKey :=
  if hvalue : value.length = valueBytes ∧ valuePrefix.isPrefixOf value then
    match h : decodeHex (value.drop valuePrefix.length) with
    | some bytes => .ok ⟨bytes, decodeHex_keyBytes hvalue.1 h⟩
    | none => .error invalidKeyValue
  else .error invalidKeyValue

/-! ## Loading and creating the key -/

/-- The operations of a key store on one slot. -/
structure KeyStore (L σ : Type) where
  readSecret : Program L σ SourceVaultError (List UInt8)
  validateLabel : Program L σ SourceVaultError Unit
  writeSecret : List UInt8 → Program L σ SourceVaultError Unit
  setLabel : Program L σ SourceVaultError Unit

variable {L σ : Type}

def loadExisting (store : KeyStore L σ) : Program L σ SourceVaultError KeyEncryptionKey := do
  let value ← store.readSecret
  let key ← .ofExcept (decode value)
  store.validateLabel
  let recheck ← store.readSecret
  .ofExcept (require (value = recheck) (failure .keyReadbackMismatch "recheck key value"))
  store.validateLabel
  return key

/-- The value that `bootstrap` goes on with: the one in the slot, or a new one that it writes. -/
def expectedValue (store : KeyStore L σ) (random : Except SourceVaultError KeyEncryptionKey) :
    Program L σ SourceVaultError (List UInt8) := do
  match ← store.readSecret.attempt with
  | .ok value =>
    let _ ← .ofExcept (decode value)
    return value
  | .error error =>
    if error.code = .keyMissing then
      let generated ← .ofExcept (encode <$> random)
      -- Narrows the window between the read and the upsert.
      match ← store.readSecret.attempt with
      | .ok value =>
        let _ ← .ofExcept (decode value)
        return value
      | .error error =>
        if error.code = .keyMissing then
          store.writeSecret generated
          return generated
        else .ofExcept (.error error)
    else .ofExcept (.error error)

/-- Checks the label and writes it anew when only the label is wrong. -/
def ensureLabel (store : KeyStore L σ) : Program L σ SourceVaultError Unit := do
  match ← store.validateLabel.attempt with
  | .ok _ => return ()
  | .error error =>
    if error.code = .keyMetadataMismatch then store.setLabel else .ofExcept (.error error)

def bootstrap (store : KeyStore L σ) (random : Except SourceVaultError KeyEncryptionKey) :
    Program L σ SourceVaultError KeyEncryptionKey := do
  let expected ← expectedValue store random
  let written ← store.readSecret
  .ofExcept (require (written = expected)
    (failure .keyReadbackMismatch "verify bootstrap key write"))
  ensureLabel store
  let key ← loadExisting store
  let final ← store.readSecret
  .ofExcept (require (final = expected)
    (failure .keyReadbackMismatch "verify bootstrap key value"))
  return key

def loadOrBootstrap (store : KeyStore L σ) (initialized : Bool)
    (random : Except SourceVaultError KeyEncryptionKey) :
    Program L σ SourceVaultError KeyEncryptionKey :=
  if initialized then loadExisting store else bootstrap store random

/-! ## One slot of a key store -/

def keyLabel : String :=
  "RadishMemory Source Vault key"

/-- Why the next operation fails, and whether a write takes effect all the same.  A store that
cannot be read never reports a missing key. -/
structure StoreFault where
  code : SourceVaultErrorCode
  applied : Bool
  present : code ≠ .keyMissing

/-- A slot: its secret, its label, the fault that its next operation meets, and every value that
has been written to it. -/
structure SlotState where
  secret : Option (List UInt8)
  label : String
  fault : Option StoreFault
  written : List (List UInt8)

namespace SlotState

def readSecret (slot : SlotState) : Except SourceVaultError (List UInt8) :=
  match slot.fault with
  | some fault => .error (failure fault.code "read key secret")
  | none => slot.secret.orError (failure .keyMissing "read key secret")

def checkLabel (slot : SlotState) (operation : String) : Except SourceVaultError Unit :=
  match slot.fault, slot.secret with
  | some fault, _ => .error (failure fault.code operation)
  | none, none => .error (failure .keyMissing operation)
  | none, some _ => require (slot.label = keyLabel) (failure .keyMetadataMismatch "verify key label")

/-- The operation fails, or it succeeds. -/
def outcome (slot : SlotState) (operation : String) : Except SourceVaultError Unit :=
  match slot.fault with
  | some fault => .error (failure fault.code operation)
  | none => .ok ()

/-- Whether a write in this state changes the slot. -/
def takesEffect (slot : SlotState) : Bool :=
  match slot.fault with
  | some fault => fault.applied
  | none => true

/-- An upsert: a value that is there is replaced. -/
def writeSecret (slot : SlotState) (value : List UInt8) : SlotState :=
  if slot.takesEffect then
    { slot with secret := some value, written := slot.written ++ [value] }
  else slot

def setLabel (slot : SlotState) : SlotState :=
  if slot.takesEffect && slot.secret.isSome then { slot with label := keyLabel } else slot

end SlotState

/-- The operations of the provider on a slot. -/
inductive KeyOperation where
  | readSecret
  | validateLabel
  | writeSecret
  | setLabel
deriving DecidableEq, Repr

/-- The key store of a slot that is a part of a larger state. -/
def slotStore (access : KeyOperation → L) (slot : σ → SlotState) (update : σ → SlotState → σ) :
    KeyStore L σ where
  readSecret := .read (access .readSecret) fun s => (slot s).readSecret
  validateLabel := .read (access .validateLabel) fun s => (slot s).checkLabel "read key label"
  writeSecret value := .access (access .writeSecret)
    (fun s => update s ((slot s).writeSecret value))
    fun s => .done ((slot s).outcome "write key secret")
  setLabel := .access (access .setLabel) (fun s => update s (slot s).setLabel)
    fun s => .done ((slot s).setLabel.checkLabel "write key label")

end RadishMemory
