import Ratspeak.Database.Suppression

/-!
# Suppression records as bytes

A valid record takes at most 512 bytes and is read back as it was written, and
whatever is read is valid.  What is assumed of the MessagePack library is that
accessors see what constructors made, and that short arrays of integers and
short binaries are written in their usual sizes and read back.
-/

namespace Ratspeak

open Library Library.MessagePack

variable {Value : Type} {rmpv : Rmpv Value}

/-- The value of a member of an array. -/
def Rmpv.ofScalar (rmpv : Rmpv Value) : Scalar → Value
  | .unsigned number => rmpv.unsigned number
  | .binary bytes => rmpv.binary bytes

/-- The MessagePack library works on short arrays. -/
structure Rmpv.Lawful (rmpv : Rmpv Value) : Prop where
  asArray_array (values : List Value) : rmpv.asArray (rmpv.array values) = some values
  asU64_unsigned (number : UInt64) : rmpv.asU64 (rmpv.unsigned number) = some number
  asSlice_binary (bytes : List UInt8) : rmpv.asSlice (rmpv.binary bytes) = some bytes
  writes (members : List Scalar) (few : members.length < 16)
    (short : ∀ member ∈ members, member.Short) :
    ∃ encoded,
      rmpv.writeValue (rmpv.array (members.map rmpv.ofScalar)) = .ok encoded ∧
      encoded.length ≤ 1 + (members.map Scalar.sizeBound).sum ∧
      rmpv.encodedFieldValue encoded = .ok () ∧
      rmpv.readValue encoded = .ok (rmpv.array (members.map rmpv.ofScalar))

/-! ## What is read is valid -/

theorem valid_of_checks {record : SuppressionRecord} (passes : ¬(record.attempts.toNat = 0 ∨
      record.nextRetry.toNat < record.lastFailure.toNat ∨
      record.expiresAt.toNat ≤ record.lastFailure.toNat ∨
      saturatingAdd record.lastFailure.toNat suppressionSeconds <
        record.expiresAt.toNat)) : record.Valid := by
  rw [not_or, not_or, not_or, Nat.not_lt, Nat.not_le, Nat.not_lt] at passes
  obtain ⟨attempted, ordered, lives, limited⟩ := passes
  exact ⟨Nat.one_le_iff_ne_zero.mpr attempted, ordered, lives,
    limited.trans (Nat.min_le_left _ _)⟩

theorem SuppressionRecord.Valid.passes {record : SuppressionRecord} (valid : record.Valid) :
    ¬(record.attempts.toNat = 0 ∨
      record.nextRetry.toNat < record.lastFailure.toNat ∨
      record.expiresAt.toNat ≤ record.lastFailure.toNat ∨
      saturatingAdd record.lastFailure.toNat suppressionSeconds <
        record.expiresAt.toNat) := by
  have small : record.expiresAt.toNat ≤ u64Max := by
    have below := record.expiresAt.toNat_lt
    rw [u64Max]
    omega
  rw [not_or, not_or, not_or, Nat.not_lt, Nat.not_le, Nat.not_lt]
  exact ⟨Nat.one_le_iff_ne_zero.mp valid.attempted, valid.ordered,
    valid.lives, Nat.le_min.mpr ⟨valid.limited, small⟩⟩

/-- No accepted byte string is a record that is not valid. -/
theorem valid_of_decodeSuppression {encoded : List UInt8} {record : SuppressionRecord}
    (decoded : decodeSuppression rmpv encoded = .ok record) :
    record.Valid := by
  obtain ⟨_, -, decoded⟩ := bind_eq_ok decoded
  obtain ⟨_, -, decoded⟩ := bind_eq_ok decoded
  obtain ⟨value, -, decoded⟩ := bind_eq_ok decoded
  obtain ⟨array, -, decoded⟩ := bind_eq_ok decoded
  obtain ⟨read, -, decoded⟩ := bind_eq_ok decoded
  obtain ⟨_, checked, decoded⟩ := bind_eq_ok decoded
  cases decoded
  exact valid_of_checks (refuseIf_eq_ok checked)

/-! ## The round trip -/

theorem length_bytes {length : Nat} (bytes : Bytes length) :
    bytes.val.length = length :=
  bytes.property

def suppressionMembers (record : SuppressionRecord) (reason : Nat) :
    List Scalar :=
  [.unsigned 1,
    .binary record.scope.identity.val,
    .binary record.scope.node.val,
    .binary record.scope.transientId.val,
    .unsigned (UInt64.ofNat reason),
    .binary record.epochs.policy.val,
    .binary record.epochs.keys.val,
    .binary record.epochs.budget.val,
    .binary record.epochs.storageHealth.val,
    .unsigned record.attempts.toUInt64,
    .unsigned record.lastFailure,
    .unsigned record.nextRetry,
    .unsigned record.expiresAt]

theorem suppressionValue_eq (record : SuppressionRecord) (reason : Nat) :
    suppressionValue rmpv record reason =
      rmpv.array ((suppressionMembers record reason).map rmpv.ofScalar) :=
  rfl

theorem short_suppressionMembers (record : SuppressionRecord) (reason : Nat) :
    ∀ member ∈ suppressionMembers record reason, member.Short := by
  intro member among
  simp only [suppressionMembers, List.mem_cons, List.not_mem_nil, or_false] at among
  rcases among with rfl | rfl | rfl | rfl | rfl | rfl | rfl | rfl | rfl |
    rfl | rfl | rfl | rfl <;>
  simp [Scalar.Short, length_bytes]

theorem sum_suppressionMembers (record : SuppressionRecord) (reason : Nat) :
    1 + ((suppressionMembers record reason).map Scalar.sizeBound).sum =
      282 := by
  simp only [suppressionMembers, List.map_cons, List.map_nil,
    Scalar.sizeBound, List.sum_cons, List.sum_nil, length_bytes,
    Nat.reduceAdd]

/-- Every reason has a number, which is that of no other. -/
theorem suppressionReasons_findIdx (reason : SuppressionReason) :
    ∃ index,
      suppressionReasons.findIdx? (fun other => other = reason) =
        some index ∧
      index < 13 ∧ suppressionReasons[index]? = some reason := by
  cases reason <;> exact ⟨_, rfl, by decide, rfl⟩

theorem suppressionFields_members (lawful : rmpv.Lawful)
    (record : SuppressionRecord) {index : Nat} (small : index < 13)
    (numbered : suppressionReasons[index]? = some record.reason) :
    suppressionFields rmpv
      ((suppressionMembers record index).map rmpv.ofScalar) =
        .ok record := by
  have same : (UInt64.ofNat index).toNat = index :=
    UInt64.toNat_ofNat_of_lt' (Nat.lt_trans small (by decide))
  have attempts : u16TryFrom record.attempts.toUInt64 =
      .ok record.attempts := by
    have fits : record.attempts.toUInt64.toNat < 65536 := by
      rw [UInt16.toNat_toUInt64]
      exact record.attempts.toNat_lt
    rw [u16TryFrom, if_pos fits, UInt16.toUInt16_toUInt64]
  simp only [suppressionFields, suppressionMembers, List.map_cons,
    List.map_nil, Rmpv.ofScalar, integer, binary, List.getElem?_cons_zero,
    List.getElem?_cons_succ, Option.bind_some, lawful.asU64_unsigned,
    lawful.asSlice_binary, Bytes.ofList_val, okOr_some, ok_bind, same,
    numbered, attempts, storage, Except.mapError]
  rfl

/-- A record takes at most 512 bytes, and reading them gives it back if it is
valid. -/
theorem encodeSuppression_spec (lawful : rmpv.Lawful) (record : SuppressionRecord) :
    ∃ encoded, encodeSuppression rmpv record = .ok encoded ∧
      encoded.length ≤ 512 ∧
      ∀ read, decodeSuppression rmpv encoded = .ok read ↔
        record.Valid ∧ read = record := by
  obtain ⟨index, found, small, numbered⟩ :=
    suppressionReasons_findIdx record.reason
  obtain ⟨encoded, written, size, checked, back⟩ :=
    lawful.writes (suppressionMembers record index)
      (by simp [suppressionMembers])
      (short_suppressionMembers record index)
  rw [sum_suppressionMembers] at size
  have fits : ¬512 < encoded.length := by
    omega
  have encodes : encodeSuppression rmpv record = .ok encoded := by
    rw [encodeSuppression, found, okOr_some, ok_bind, suppressionValue_eq, written]
    change refuseIf _ _ >>= _ = _
    rw [refuseIf_of_not _ fits]
    rfl
  have decodes : decodeSuppression rmpv encoded =
      (refuseIf (record.attempts.toNat = 0 ∨
        record.nextRetry.toNat < record.lastFailure.toNat ∨
        record.expiresAt.toNat ≤ record.lastFailure.toNat ∨
        saturatingAdd record.lastFailure.toNat suppressionSeconds <
          record.expiresAt.toNat) .missingEffect >>= fun _ =>
            .ok record) := by
    have whole : (rmpv.asArray (rmpv.array
        ((suppressionMembers record index).map rmpv.ofScalar))).filter
          (fun array => array.length = 13) =
        some ((suppressionMembers record index).map rmpv.ofScalar) := by
      rw [lawful.asArray_array]
      rfl
    rw [decodeSuppression, refuseIf_of_not _ fits, ok_bind, checked]
    change storage _ >>= _ = _
    rw [back]
    change okOr _ _ >>= _ = _
    rw [whole, okOr_some, ok_bind,
      suppressionFields_members lawful record small numbered, ok_bind]
    rfl
  refine ⟨encoded, encodes, by omega, fun read => ?_⟩
  rw [decodes]
  constructor
  · intro accepted
    obtain ⟨_, passed, same⟩ := bind_eq_ok accepted
    cases same
    exact ⟨valid_of_checks (refuseIf_eq_ok passed), rfl⟩
  · intro ⟨valid, same⟩
    rw [refuseIf_of_not _ valid.passes, same]
    rfl

end Ratspeak
