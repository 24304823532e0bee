import RadishMemory.Framework.Checked

/-!
# Canonical values

The value types of the canonical core: identifiers, texts, versions, timestamps, digests and
governance.  A Rust newtype whose constructor rejects bad input is a structure that carries
the accepted fact as a field, so an ill-formed identifier, retention rule or governance value
cannot be built.

SHA-256 and Unicode normalization are libraries of the program, not part of it; they enter as
the class `Platform`, and every definition and theorem that hashes text is stated for an
arbitrary instance.

A `Timestamp` is what the RFC 3339 parser returns.  The store keeps the original text and
parses it again on every read, so a column of the schema holds the parsed value here.  Two
timestamps are equal in the program when they name the same instant, whatever their text or
offset; that comparison is the `BEq` instance, and there is no structural one.
-/

namespace RadishMemory

/-! ## Errors of the canonical core -/

inductive CrossObjectInvariantReason where
  | missingReference
  | duplicateObject
  | namespaceMismatch
  | identityMismatch
  | sourceSliceMismatch
  | governanceMismatch
  | recallBlocked
  | materializationMismatch
  | eventChainConflict
  | stateProjectionMismatch
  | supersessionMismatch
  | citationMismatch
  | deletionPlanMismatch
  | deletionStateMismatch
  | timeAlignmentMismatch
  | originBindingMismatch
  | fragmentSetMismatch
deriving DecidableEq, Repr

inductive InvalidCanonicalObjectReason where
  | emptyIdentifier
  | emptyText
  | zeroVersion
  | invalidUnitInterval
  | emptyRequiredCollection
  | duplicateCollectionMember
  | duplicateOrdinal
  | invalidFieldCombination
  | invalidByteRange
  | contentLengthMismatch
  | invalidDigestValue
  | digestProfileMismatch
  | nonLocalGovernance
  | budgetExceeded
  | countMismatch
  | unsortedTargetClosure
  | invalidStateTransition
  | timeOrder
deriving DecidableEq, Repr

inductive InvalidTimeReason where
  | parse
  | boundaryCombination
  | intervalOrder
deriving DecidableEq, Repr

inductive CoreError where
  | unsupportedProfile
  | invalidTime (reason : InvalidTimeReason)
  | digestMismatch
  | invalidCanonicalObject (reason : InvalidCanonicalObjectReason)
  | crossObjectInvariant (reason : CrossObjectInvariantReason)
deriving DecidableEq, Repr

/-! ## Identifiers, texts and numbers -/

structure Identifier where
  asStr : String
  nonempty : asStr ≠ ""
deriving DecidableEq

theorem Identifier.ext_asStr {a b : Identifier} (h : a.asStr = b.asStr) : a = b := by
  cases a
  cases b
  cases h
  rfl

structure NonEmptyText where
  asStr : String
  nonempty : asStr ≠ ""
deriving DecidableEq

theorem NonEmptyText.ext_asStr {a b : NonEmptyText} (h : a.asStr = b.asStr) : a = b := by
  cases a
  cases b
  cases h
  rfl

def NonEmptyText.utf8Len (text : NonEmptyText) : Nat :=
  text.asStr.utf8ByteSize

structure Version where
  get : Nat
  positive : 0 < get
deriving DecidableEq

/-- A finite double in `[0, 1]`, by its bit pattern: the non-negative doubles up to `1.0` are
exactly the patterns up to that of `1.0`, and `-0.0` is normalized to `0.0`. -/
structure UnitInterval where
  bits : Nat
  inRange : bits ≤ 0x3FF0000000000000
deriving DecidableEq

inductive CanonicalObjectType where
  | sourceArtifact
  | sourceFragment
  | memoryProposal
  | memoryDecision
  | memoryRecord
  | memoryStateEvent
  | contextPack
  | deleteRequest
  | deletionEvidence
deriving DecidableEq, Repr

def CanonicalObjectType.asStr : CanonicalObjectType → String
  | .sourceArtifact => "SourceArtifact"
  | .sourceFragment => "SourceFragment"
  | .memoryProposal => "MemoryProposal"
  | .memoryDecision => "MemoryDecision"
  | .memoryRecord => "MemoryRecord"
  | .memoryStateEvent => "MemoryStateEvent"
  | .contextPack => "ContextPack"
  | .deleteRequest => "DeleteRequest"
  | .deletionEvidence => "DeletionEvidence"

/-- The position of a type in its declaration, which is the derived order of the enumeration. -/
def CanonicalObjectType.rank : CanonicalObjectType → Nat
  | .sourceArtifact => 0
  | .sourceFragment => 1
  | .memoryProposal => 2
  | .memoryDecision => 3
  | .memoryRecord => 4
  | .memoryStateEvent => 5
  | .contextPack => 6
  | .deleteRequest => 7
  | .deletionEvidence => 8

structure ObjectRef where
  objectType : CanonicalObjectType
  objectId : Identifier
deriving DecidableEq

/-- The derived order of references: by type, then by identifier text. -/
def ObjectRef.lt (a b : ObjectRef) : Prop :=
  a.objectType.rank < b.objectType.rank ∨
    (a.objectType.rank = b.objectType.rank ∧ a.objectId.asStr < b.objectId.asStr)

instance : LT ObjectRef := ⟨ObjectRef.lt⟩

instance (a b : ObjectRef) : Decidable (a < b) :=
  inferInstanceAs (Decidable (_ ∨ (_ ∧ _)))

inductive EvidenceType where
  | sourceFragment
  | memoryProposal
  | memoryDecision
  | memoryRecord
  | deleteRequest
  | policyBasis
deriving DecidableEq, Repr

structure EvidenceRef where
  evidenceType : EvidenceType
  evidenceId : Identifier
deriving DecidableEq

inductive ActorType where
  | user
  | device
  | rule
  | parser
  | testFixture
  | system
deriving DecidableEq, Repr

structure ActorRef where
  actorType : ActorType
  actorId : Identifier
  actorVersion : Option NonEmptyText
deriving DecidableEq

inductive ProducerType where
  | rule
  | parser
  | testFixture
  | system
deriving DecidableEq, Repr

structure ProducerRef where
  producerType : ProducerType
  producerId : Identifier
  producerVersion : NonEmptyText
deriving DecidableEq

/-! ## Time -/

/-- A parsed RFC 3339 timestamp.  `utcSecondKey` is twice the Unix second, plus one for a leap
second; the digits of the fraction are kept as written. -/
structure Timestamp where
  original : String
  utcSecondKey : Int
  fractionalSeconds : List (Fin 10)
  offsetSeconds : Int

/-- Compare two fractions digit by digit, the shorter one padded with zeros. -/
def compareFraction (left right : List (Fin 10)) : Ordering :=
  (List.range (max left.length right.length)).foldr
    (fun index rest => (compare (left.getD index 0) (right.getD index 0)).then rest) .eq

def Timestamp.cmp (self other : Timestamp) : Ordering :=
  (compare self.utcSecondKey other.utcSecondKey).then
    (compareFraction self.fractionalSeconds other.fractionalSeconds)

instance : BEq Timestamp := ⟨fun a b => a.cmp b == .eq⟩

instance : LT Timestamp := ⟨fun a b => a.cmp b = .lt⟩

instance : LE Timestamp := ⟨fun a b => a.cmp b ≠ .gt⟩

instance (a b : Timestamp) : Decidable (a < b) :=
  inferInstanceAs (Decidable (a.cmp b = .lt))

instance (a b : Timestamp) : Decidable (a ≤ b) :=
  inferInstanceAs (Decidable (a.cmp b ≠ .gt))

theorem compareFraction_self (digits : List (Fin 10)) : compareFraction digits digits = .eq := by
  simp [compareFraction]

theorem Timestamp.cmp_self (t : Timestamp) : t.cmp t = .eq := by
  simp [Timestamp.cmp, compareFraction_self]

instance : ReflBEq Timestamp where
  rfl := by
    intro t
    change (t.cmp t == .eq) = true
    rw [Timestamp.cmp_self]
    rfl

/-- Compare two digit strings at the given positions, in turn. -/
def compareAt (positions : List Nat) (left right : List (Fin 10)) : Ordering :=
  positions.foldr
    (fun index rest => (compare (left.getD index 0) (right.getD index 0)).then rest) .eq

theorem compareAt_append (front back : List Nat) (left right : List (Fin 10)) :
    compareAt (front ++ back) left right =
      (compareAt front left right).then (compareAt back left right) := by
  induction front with
  | nil => rfl
  | cons index front ih =>
    simp only [compareAt, List.cons_append, List.foldr_cons] at ih ⊢
    rw [ih, Ordering.then_assoc]

/-- Past both ends every digit is zero. -/
theorem compareAt_beyond {positions : List Nat} {left right : List (Fin 10)}
    (h : ∀ index ∈ positions, left.length ≤ index ∧ right.length ≤ index) :
    compareAt positions left right = .eq := by
  induction positions with
  | nil => rfl
  | cons index rest ih =>
    obtain ⟨hleft, hright⟩ := h index List.mem_cons_self
    have hzero : ∀ digits : List (Fin 10), digits.length ≤ index → digits.getD index 0 = 0 := by
      intro digits hdigits
      rw [List.getD_eq_getElem?_getD, List.getElem?_eq_none hdigits, Option.getD_none]
    have hrest := ih fun other hother => h other (List.mem_cons_of_mem _ hother)
    simp only [compareAt, List.foldr_cons] at hrest ⊢
    rw [hrest, hzero left hleft, hzero right hright]
    decide

theorem compareFraction_eq_compareAt {left right : List (Fin 10)} {bound : Nat}
    (hleft : left.length ≤ bound) (hright : right.length ≤ bound) :
    compareFraction left right = compareAt (List.range bound) left right := by
  have hmax : max left.length right.length ≤ bound := by omega
  obtain ⟨extra, rfl⟩ := Nat.exists_eq_add_of_le hmax
  have hbeyond : compareAt ((List.range extra).map (max left.length right.length + ·)) left right =
      .eq := by
    apply compareAt_beyond
    intro index hindex
    obtain ⟨offset, -, rfl⟩ := List.mem_map.1 hindex
    omega
  rw [List.range_add, compareAt_append, hbeyond, Ordering.then_eq]
  rfl

theorem compareAt_transCmp (positions : List Nat) : Std.TransCmp (compareAt positions) := by
  induction positions with
  | nil => exact { eq_swap := rfl, isLE_trans := fun _ _ => rfl }
  | cons index rest ih =>
    have hdigit : Std.TransCmp (compareOn fun digits : List (Fin 10) => digits.getD index 0) :=
      inferInstance
    exact inferInstanceAs (Std.TransCmp (compareLex (compareOn fun digits : List (Fin 10) =>
      digits.getD index 0) (compareAt rest)))

theorem Timestamp.le_trans {a b c : Timestamp} (hab : a ≤ b) (hbc : b ≤ c) : a ≤ c := by
  let bound := max a.fractionalSeconds.length
    (max b.fractionalSeconds.length c.fractionalSeconds.length)
  have hcmp := compareAt_transCmp (List.range bound)
  -- one comparison that agrees with `cmp` on all three
  let common : Timestamp → Timestamp → Ordering :=
    compareLex (compareOn Timestamp.utcSecondKey)
      (fun x y => compareAt (List.range bound) x.fractionalSeconds y.fractionalSeconds)
  have htrans : Std.TransCmp common := by
    have hfraction : Std.TransCmp fun x y : Timestamp =>
        compareAt (List.range bound) x.fractionalSeconds y.fractionalSeconds :=
      { eq_swap := hcmp.eq_swap, isLE_trans := hcmp.isLE_trans }
    exact inferInstanceAs (Std.TransCmp (compareLex _ _))
  have heq : ∀ x y : Timestamp, x.fractionalSeconds.length ≤ bound →
      y.fractionalSeconds.length ≤ bound → x.cmp y = common x y := by
    intro x y hx hy
    show (compare x.utcSecondKey y.utcSecondKey).then _ = _
    rw [compareFraction_eq_compareAt hx hy]
    rfl
  have ha : a.fractionalSeconds.length ≤ bound := by omega
  have hb : b.fractionalSeconds.length ≤ bound := by omega
  have hc : c.fractionalSeconds.length ≤ bound := by omega
  have hab' : (common a b).isLE := by
    rw [← heq a b ha hb]
    exact Ordering.isLE_iff_ne_gt.2 hab
  have hbc' : (common b c).isLE := by
    rw [← heq b c hb hc]
    exact Ordering.isLE_iff_ne_gt.2 hbc
  show a.cmp c ≠ .gt
  rw [heq a c ha hc]
  exact Ordering.isLE_iff_ne_gt.1 (htrans.isLE_trans hab' hbc')

theorem Timestamp.le_refl (t : Timestamp) : t ≤ t := by
  show t.cmp t ≠ .gt
  rw [Timestamp.cmp_self]
  decide
inductive ValidTimeMode where
  | unknown
  | instant
  | interval
  | openEnded
deriving DecidableEq, Repr

inductive TimePrecision where
  | exact
  | day
  | month
  | year
  | unknown
deriving DecidableEq, Repr

/-- The boundary fields each mode asks for. -/
def boundariesMatch (mode : ValidTimeMode) (startAt endAt : Option Timestamp) : Bool :=
  match mode with
  | .unknown => startAt.isNone && endAt.isNone
  | .instant | .openEnded => startAt.isSome && endAt.isNone
  | .interval => startAt.isSome && endAt.isSome

/-- An interval starts strictly before it ends. -/
def intervalOrdered (mode : ValidTimeMode) (startAt endAt : Option Timestamp) : Bool :=
  match mode, startAt, endAt with
  | .interval, some start, some «end» => decide (start < «end»)
  | _, _, _ => true

structure ValidTime where
  mode : ValidTimeMode
  startAt : Option Timestamp
  endAt : Option Timestamp
  precision : TimePrecision
  boundaries : boundariesMatch mode startAt endAt = true
  ordered : intervalOrdered mode startAt endAt = true

instance : BEq ValidTime :=
  ⟨fun a b => a.mode == b.mode && a.startAt == b.startAt && a.endAt == b.endAt &&
    a.precision == b.precision⟩

instance : ReflBEq ValidTime where
  rfl := by
    intro v
    change (v.mode == v.mode && v.startAt == v.startAt && v.endAt == v.endAt &&
      v.precision == v.precision) = true
    simp

/-- Point-in-time membership, with `[start, end)` intervals. -/
def ValidTime.contains (self : ValidTime) (candidate : Timestamp) : Bool :=
  match self.mode with
  | .unknown => false
  | .instant => self.startAt == some candidate
  | .interval =>
    (self.startAt.any fun start => decide (start ≤ candidate)) &&
      (self.endAt.any fun «end» => decide (candidate < «end»))
  | .openEnded => self.startAt.any fun start => decide (start ≤ candidate)

/-! ## Digests -/

inductive DigestProfile where
  | exactBytesV1
  | utf8NfcTextV1
  | canonicalJsonV1
  | fixtureSuiteV1
  | contextPackV1
  | deletionEvidenceV1
deriving DecidableEq, Repr

/-- Sixty-four lower-case hexadecimal digits. -/
def isSha256Hex (value : String) : Bool :=
  value.toList.length == 64 && value.toList.all fun c =>
    c.isDigit || ('a' ≤ c && c ≤ 'f')

structure Sha256Hex where
  text : String
  wellFormed : isSha256Hex text = true
deriving DecidableEq

structure Digest where
  profile : DigestProfile
  value : Sha256Hex
deriving DecidableEq

/-- The libraries the core calls: the SHA-256 of a byte string, in lower-case hexadecimal, and
Unicode normalization form C. -/
class Platform where
  sha256 : List UInt8 → Sha256Hex
  nfc : String → String

/-- The UTF-8 encoding of a text. -/
def utf8Bytes (text : String) : List UInt8 :=
  text.toList.flatMap String.utf8EncodeChar

theorem utf8Bytes_injective {a b : String} (h : utf8Bytes a = utf8Bytes b) : a = b := by
  have hencode : a.toList.utf8Encode = b.toList.utf8Encode := by
    unfold utf8Bytes at h
    unfold List.utf8Encode
    rw [h]
  rw [String.utf8Encode_toList, String.utf8Encode_toList] at hencode
  exact String.toByteArray_inj.1 hencode

section Digest

variable [Platform]

def makeDigest (profile : DigestProfile) (input : List UInt8) : Digest :=
  { profile, value := Platform.sha256 input }

def computeExactBytesDigest (input : List UInt8) : Digest :=
  makeDigest .exactBytesV1 input

def computeNfcTextDigest (input : String) : Digest :=
  makeDigest .utf8NfcTextV1 (utf8Bytes (Platform.nfc input))

end Digest

def requireProfile (digest : Digest) (profile : DigestProfile) : Except CoreError Unit :=
  require (digest.profile = profile) (.invalidCanonicalObject .digestProfileMismatch)

def requireNonEmpty {α : Type} (values : List α) : Except CoreError Unit :=
  require (values ≠ []) (.invalidCanonicalObject .emptyRequiredCollection)

instance decidableNeNil {α : Type} (values : List α) : Decidable (values ≠ []) :=
  match values with
  | [] => isFalse (by simp)
  | _ :: _ => isTrue (by simp)

def requireUnique {α : Type} [DecidableEq α] (values : List α) : Except CoreError Unit :=
  require values.Nodup (.invalidCanonicalObject .duplicateCollectionMember)

/-! ## Governance -/

inductive Sensitivity where
  | personal
  | sensitive
  | restricted
deriving DecidableEq, Repr

inductive EgressPolicy where
  | localOnly
  | trustedDeviceOnly
  | trustedServerOnly
  | cloudAllowed
deriving DecidableEq, Repr

inductive DeletionState where
  | active
  | pending
  | failed
  | deleted
deriving DecidableEq, Repr

inductive RetentionMode where
  | untilDeleted
  | untilTime
  | policy
deriving DecidableEq, Repr

/-- The optional fields each retention mode asks for. -/
def retentionFieldsMatch (mode : RetentionMode) (expiresAt : Option Timestamp)
    (policyId : Option Identifier) : Bool :=
  match mode with
  | .untilDeleted => expiresAt.isNone && policyId.isNone
  | .untilTime => expiresAt.isSome && policyId.isNone
  | .policy => expiresAt.isNone && policyId.isSome

structure RetentionRule where
  mode : RetentionMode
  expiresAt : Option Timestamp
  policyId : Option Identifier
  fieldsMatch : retentionFieldsMatch mode expiresAt policyId = true

instance : BEq RetentionRule :=
  ⟨fun a b => a.mode == b.mode && a.expiresAt == b.expiresAt && a.policyId == b.policyId⟩

instance : ReflBEq RetentionRule where
  rfl := by
    intro r
    change (r.mode == r.mode && r.expiresAt == r.expiresAt && r.policyId == r.policyId) = true
    simp

structure Governance where
  sensitivity : Sensitivity
  egressPolicy : EgressPolicy
  retention : RetentionRule
  deletionState : DeletionState
  policyBasis : Identifier
  localOnly : egressPolicy = .localOnly

instance : BEq Governance :=
  ⟨fun a b => a.sensitivity == b.sensitivity && a.egressPolicy == b.egressPolicy &&
    a.retention == b.retention && a.deletionState == b.deletionState &&
    a.policyBasis == b.policyBasis⟩

instance : ReflBEq Governance where
  rfl := by
    intro g
    change (g.sensitivity == g.sensitivity && g.egressPolicy == g.egressPolicy &&
      g.retention == g.retention && g.deletionState == g.deletionState &&
      g.policyBasis == g.policyBasis) = true
    simp

/-! ## Memory values -/

/-- The two columns a memory text is stored in. -/
structure MemoryValueParams where
  text : NonEmptyText
  contentDigest : Digest
deriving DecidableEq

section MemoryValue

variable [Platform]

def MemoryValueParams.check (value : MemoryValueParams) : Except CoreError Unit := do
  requireProfile value.contentDigest .utf8NfcTextV1
  require (computeNfcTextDigest value.text.asStr = value.contentDigest) .digestMismatch

/-- A text with the digest that was recomputed from it. -/
abbrev MemoryValue :=
  Checked MemoryValueParams.check

def MemoryValue.new (text : NonEmptyText) (contentDigest : Digest) :
    Except CoreError MemoryValue :=
  Checked.new MemoryValueParams.check { text, contentDigest }

end MemoryValue

end RadishMemory
