import Ratspeak.Hub.Coherence

/-!
# Roster packets

A roster is split over packets that each fit the link.  Only a roster of one
member is sent as one member, so that no piece of a roster reads as a join.
-/

namespace Ratspeak.Hub

open Ratspeak.Library

/-! ## Splitting a roster -/

/-- Every piece but the last is full, and the last has some items. -/
def Regular {α : Type} (length : Nat) : List (List α) → Prop
  | [] => True
  | [last] => last ≠ [] ∧ last.length ≤ length
  | piece :: next :: rest => piece.length = length ∧ Regular length (next :: rest)

theorem chunksOf_eq_nil {α : Type} {length fuel : Nat} {items : List α}
    (enough : items.length ≤ fuel) :
    chunksOf length fuel items = [] ↔ items = [] := by
  cases fuel with
  | zero =>
      have none : items = [] := List.length_eq_zero_iff.mp (by omega)
      simp [chunksOf, none]
  | succ fuel =>
      cases items with
      | nil => simp [chunksOf]
      | cons first rest => simp [chunksOf]

theorem regular_chunksOf {α : Type} {length : Nat} (positive : 0 < length)
    (fuel : Nat) (items : List α) (enough : items.length ≤ fuel) :
    Regular length (chunksOf length fuel items) := by
  induction fuel generalizing items with
  | zero => trivial
  | succ fuel ih =>
      cases items with
      | nil => trivial
      | cons first rest =>
          have shorter : ((first :: rest).drop length).length ≤ fuel := by
            rw [List.length_drop]
            rw [List.length_cons] at enough ⊢
            omega
          have later := ih _ shorter
          have ends := @chunksOf_eq_nil α length _ _ shorter
          have split : chunksOf length (fuel + 1) (first :: rest) =
              (first :: rest).take length ::
                chunksOf length fuel ((first :: rest).drop length) := rfl
          rw [split]
          cases pieces : chunksOf length fuel ((first :: rest).drop length) with
          | nil =>
              refine ⟨?_, List.length_take_le length (first :: rest)⟩
              intro none
              have size := congrArg List.length none
              rw [List.length_take, List.length_cons] at size
              simp only [List.length_nil] at size
              omega
          | cons next more =>
              refine ⟨?_, by rw [← pieces]; exact later⟩
              have someLeft : (first :: rest).drop length ≠ [] := by
                intro none
                rw [ends.mpr none] at pieces
                cases pieces
              have long := mt List.drop_eq_nil_iff.mpr someLeft
              rw [List.length_take]
              omega

/-- A piece of a roster that no packet confuses with a join. -/
structure Fragment {α : Type} (length : Nat) (piece : List α) : Prop where
  several : 2 ≤ piece.length
  within : piece.length ≤ length

theorem fragments_rebalance {α : Type} {length : Nat} (three : 3 ≤ length)
    (pieces : List (List α)) (regular : Regular length pieces) (several : 2 ≤ pieces.length) :
    ∀ piece ∈ rebalance pieces, Fragment length piece := by
  induction pieces using rebalance.induct with
  | case1 => exact absurd several (by simp)
  | case2 piece => exact absurd several (by simp)
  | case3 previous lone absent =>
      have full := regular.1
      rw [List.getLast?_eq_none_iff.mp absent, List.length_nil] at full
      omega
  | case4 previous lone borrowed last =>
      have full := regular.1
      have shorter : previous.dropLast.length = length - 1 := by
        rw [List.length_dropLast, full]
      intro piece among
      rw [rebalance, last] at among
      rcases List.mem_cons.mp among with isFirst | isLast
      · rw [isFirst]
        exact ⟨by omega, by omega⟩
      · rw [List.mem_singleton.mp isLast]
        have two : [borrowed, lone].length = 2 := rfl
        exact ⟨Nat.le_of_eq two.symm, by omega⟩
  | case5 piece rest notLone notPair ih =>
      cases rest with
      | nil => exact absurd several (by simp)
      | cons next more =>
          have full := regular.1
          intro other among
          rw [rebalance] at among
          · rcases List.mem_cons.mp among with isFirst | later
            · rw [isFirst]
              exact ⟨by omega, by omega⟩
            · cases more with
              | nil =>
                  rw [rebalance, List.mem_singleton] at later
                  obtain ⟨filled, within⟩ := regular.2
                  rw [later]
                  refine ⟨?_, within⟩
                  have two : next.length ≠ 1 := by
                    intro one
                    obtain ⟨lone, isLone⟩ := List.length_eq_one_iff.mp one
                    exact notPair lone (by rw [isLone])
                  have some := List.length_pos_iff.mpr filled
                  omega
              | cons third more => exact ih regular.2 (by simp) other later
          · exact notLone
          · exact notPair

theorem length_rebalance {α : Type} (pieces : List (List α)) :
    (rebalance pieces).length = pieces.length := by
  induction pieces using rebalance.induct with
  | case1 => rfl
  | case2 piece => rfl
  | case3 previous lone absent => simp [rebalance, absent]
  | case4 previous lone borrowed last => simp [rebalance, last]
  | case5 piece rest notLone notPair ih =>
      rw [rebalance]
      · rw [List.length_cons, List.length_cons, ih]
      · exact notLone
      · exact notPair

/-- A roster is one piece, or pieces of at least two members each. -/
theorem rosterChunks_cases {perChunk : Nat} (three : 3 ≤ perChunk)
    (joiner : IdentityHash) (roster : List IdentityHash) :
    (∃ piece, rosterChunks perChunk joiner roster = [piece] ∧
      piece ≠ [] ∧ piece.length ≤ perChunk) ∨
      2 ≤ (rosterChunks perChunk joiner roster).length ∧
        ∀ piece ∈ rosterChunks perChunk joiner roster,
          Fragment perChunk piece := by
  unfold rosterChunks
  dsimp only
  generalize ordered : joiner :: roster.filter (· ≠ joiner) = members
  have some : members ≠ [] := by
    rw [← ordered]
    exact List.cons_ne_nil _ _
  have wide : 0 < perChunk := by
    omega
  have regular := regular_chunksOf wide members.length members (Nat.le_refl _)
  have filled := mt (@chunksOf_eq_nil _ perChunk _ _ (Nat.le_refl members.length)).mp some
  generalize chunksOf perChunk members.length members = pieces at regular filled ⊢
  cases pieces with
  | nil => exact absurd rfl filled
  | cons first rest =>
      cases rest with
      | nil => exact Or.inl ⟨first, rfl, regular⟩
      | cons next more =>
          refine Or.inr ⟨?_, fragments_rebalance three _ regular (by simp)⟩
          rw [length_rebalance, List.length_cons, List.length_cons]
          omega

/-! ## The packets -/

theorem headLen_le (argument : Nat) : headLen argument ≤ 9 := by
  unfold headLen
  split_ifs <;> omega

/-- The bytes of an envelope of a room besides those of its body. -/
def roomEnvelopeBytes (turn : HubTurn) (roomName : String) : Nat :=
  headLen 7 + 7 + headLen rrcVersion + headLen MessageType.joined.wire +
    (headLen 8 + 8) + headLen turn.ambient.ms + (headLen 16 + 16) +
    (headLen roomName.utf8ByteSize + roomName.utf8ByteSize)

theorem encodedLen_joinedEnvelope (turn : HubTurn) (roomName : String) (body : Value) :
    (turn.joinedEnvelope roomName (some body) none).encodedLen =
      roomEnvelopeBytes turn roomName + body.encodedLen := by
  have source : turn.core.hubHash.val.length = 16 := turn.core.hubHash.property
  unfold roomEnvelopeBytes HubTurn.joinedEnvelope HubTurn.hubEnvelope
    Envelope.encodedLen Envelope.wireFields Value.integerMap Envelope.new
    Envelope.idBytes
  simp [Value.encodedLen, Value.encodedLenMap, Value.unsigned, source,
    kVersion, kType, kId, kTimestamp, kSource, kRoom, kBody]
  have key : ∀ number : Nat, number < 24 → headLen number = 1 := by
    intro number small
    exact if_pos small
  rw [key 0, key 1, key 2, key 3, key 4, key 5, key 6] <;> omega

theorem encodedLen_memberList (members : List IdentityHash) :
    (memberList members).encodedLen =
      headLen members.length + 17 * members.length := by
  have each : ∀ rest : List IdentityHash,
      Value.encodedLenList (rest.map fun member => .bytes member.val) =
        17 * rest.length := by
    intro rest
    induction rest with
    | nil => rfl
    | cons member rest ih =>
        have length : member.val.length = 16 := member.property
        have head : headLen 16 = 1 := rfl
        rw [List.map_cons, Value.encodedLenList, ih,
          Value.encodedLen, length, head, List.length_cons]
        omega
  rw [memberList, Value.encodedLen, each, List.length_map]

/-- A packet for a room has room for some members, and for as many as the hub
puts into one. -/
theorem rosterChunkLen_fits {turn : HubTurn} {roomName : String}
    (short : roomName.utf8ByteSize ≤ 64) :
    3 ≤ turn.rosterChunkLen roomName ∧
      ∀ count ≤ turn.rosterChunkLen roomName,
        roomEnvelopeBytes turn roomName + (headLen count + 17 * count) ≤
          linkPacketBudget := by
  have overhead : turn.envelopeOverhead .joined (some roomName) =
      roomEnvelopeBytes turn roomName + 1 :=
    encodedLen_joinedEnvelope turn roomName (.text "")
  have kind : headLen MessageType.joined.wire ≤ 2 := by decide
  have clock := headLen_le turn.ambient.ms
  have name : headLen roomName.utf8ByteSize ≤ 2 := by
    unfold headLen
    split_ifs <;> omega
  have bytes : roomEnvelopeBytes turn roomName ≤ 112 := by
    have fixed : headLen 7 = 1 ∧ headLen rrcVersion = 1 ∧ headLen 8 = 1 ∧
        headLen 16 = 1 := by decide
    unfold roomEnvelopeBytes
    omega
  have limit : linkPacketBudget = 431 := rfl
  have length : turn.rosterChunkLen roomName =
      max ((431 - (roomEnvelopeBytes turn roomName + 1) - 1) / 17) 1 := by
    unfold HubTurn.rosterChunkLen
    rw [overhead, limit]
  rw [length, limit]
  refine ⟨by omega, ?_⟩
  intro count within
  have head : headLen count ≤ 2 := by
    unfold headLen
    split_ifs <;> omega
  omega

section Packets

variable [UnicodeTables]

theorem size_of_normRoom {core : HubCore} {raw roomName : String}
    (admissible : core.normRoom raw = .ok roomName) :
    roomName.utf8ByteSize ≤ core.config.maxRoomNameBytes := by
  unfold HubCore.normRoom at admissible
  dsimp only at admissible
  generalize toLowercase (trim raw) = normalized at admissible
  by_cases empty : normalized.isEmpty = true
  · rw [if_pos empty] at admissible
    cases admissible
  · rw [if_neg empty] at admissible
    by_cases long : core.config.maxRoomNameBytes < normalized.utf8ByteSize
    · rw [if_pos long] at admissible
      cases admissible
    · rw [if_neg long] at admissible
      cases admissible
      exact Nat.not_lt.mp long

/-- The packets of a roster, for any room name that a hub with the limit of
the program admits. -/
theorem pushRosterJoined_packets {turn : HubTurn} {raw roomName : String}
    (limited : turn.core.config.maxRoomNameBytes ≤ ({} : ChannelHubConfig).maxRoomNameBytes)
    (admissible : turn.core.normRoom raw = .ok roomName) (linkId : LinkId)
    (joiner : IdentityHash) (roster : List IdentityHash) :
    ∃ pieces : List (List IdentityHash),
      (turn.pushRosterJoined linkId roomName joiner roster).out =
          turn.out ++ pieces.map (fun piece =>
            ⟨.envelope linkId (turn.joinedEnvelope roomName
              (some (memberList piece)) none), turn.core⟩) ∧
        (∀ piece ∈ pieces, (turn.joinedEnvelope roomName
          (some (memberList piece)) none).encodedLen ≤ linkPacketBudget) ∧
        pieces.flatten = joiner :: roster.filter (· ≠ joiner) ∧
        (roster.Nodup → pieces.flatten.Nodup) ∧
        (∃ first rest, pieces = (joiner :: first) :: rest) ∧
        (∀ piece ∈ pieces, piece ≠ []) ∧
        (pieces.length ≠ 1 → ∀ piece ∈ pieces, 2 ≤ piece.length) := by
  have short : roomName.utf8ByteSize ≤ 64 :=
    Nat.le_trans (size_of_normRoom admissible) limited
  obtain ⟨three, fits⟩ := @rosterChunkLen_fits turn _ short
  have positive := turn.rosterChunkLen_pos roomName
  have whole := flatten_rosterChunks positive joiner roster
  have either := rosterChunks_cases three joiner roster
  have sends : (turn.pushRosterJoined linkId roomName joiner roster).out =
      turn.out ++ (rosterChunks (turn.rosterChunkLen roomName) joiner
        roster).map (fun piece => ⟨.envelope linkId
          (turn.joinedEnvelope roomName (some (memberList piece)) none),
            turn.core⟩) := by
    unfold HubTurn.pushRosterJoined
    rw [HubTurn.pushAll_out, List.map_map]
    rfl
  generalize rosterChunks (turn.rosterChunkLen roomName) joiner roster =
    pieces at whole either sends
  have filled : ∀ piece ∈ pieces, piece ≠ [] ∧
      piece.length ≤ turn.rosterChunkLen roomName := by
    intro piece among
    rcases either with ⟨only, same, someOnly, within⟩ | ⟨_, fragments⟩
    · rw [same, List.mem_singleton] at among
      rw [among]
      exact ⟨someOnly, within⟩
    · have fragment := fragments piece among
      have several := fragment.several
      exact ⟨List.length_pos_iff.mp (by omega), fragment.within⟩
  refine ⟨pieces, sends, ?_, whole, ?_, ?_, fun piece among =>
    (filled piece among).1, ?_⟩
  · intro piece among
    rw [encodedLen_joinedEnvelope, encodedLen_memberList]
    exact fits piece.length (filled piece among).2
  · intro once
    rw [whole]
    refine List.nodup_cons.mpr ⟨?_, once.filter _⟩
    intro among
    simpa using (List.mem_filter.mp among).2
  · cases pieces with
    | nil => cases whole
    | cons first rest =>
        cases first with
        | nil => exact absurd rfl (filled [] List.mem_cons_self).1
        | cons leader first =>
            have same : leader = joiner := by
              rw [List.flatten_cons, List.cons_append] at whole
              exact List.head_eq_of_cons_eq whole
            exact ⟨first, rest, by rw [same]⟩
  · intro many piece among
    rcases either with ⟨only, same, _, _⟩ | ⟨_, fragments⟩
    · rw [same] at many
      exact absurd rfl many
    · exact (fragments piece among).several

end Packets

section Samples

attribute [local instance] asciiTables sampleCrypto

/-- Thirty identities besides Alice. -/
def crowd : List IdentityHash :=
  (List.range 30).map fun index => Bytes.replicate 16 (UInt8.ofNat (index + 2))

/-- A roster that does not fit one envelope. -/
theorem pushRosterJoined_packets_crowd :
    ∃ pieces : List (List IdentityHash),
      (((sampleHub []).turn (ambientAt 0)).pushRosterJoined linkOne "r" alice
          crowd).out =
        [] ++ pieces.map (fun piece =>
          ⟨.envelope linkOne (((sampleHub []).turn
            (ambientAt 0)).joinedEnvelope "r" (some (memberList piece)) none),
            sampleHub []⟩) ∧
      pieces.flatten = alice :: crowd ∧ 2 ≤ pieces.length := by
  have named : (sampleHub []).normRoom " R " = .ok "r" := by decide
  obtain ⟨pieces, sends, fits, whole, _⟩ :=
    @pushRosterJoined_packets asciiTables ((sampleHub []).turn (ambientAt 0))
      " R " "r" (Nat.le_refl _) named linkOne alice crowd
  have others : crowd.filter (· ≠ alice) = crowd := by decide +kernel
  rw [others] at whole
  refine ⟨pieces, sends, whole, ?_⟩
  match pieces with
  | [] => cases whole
  | [only] =>
      rw [List.flatten_singleton] at whole
      have within := fits only List.mem_cons_self
      rw [whole] at within
      exact absurd within (by decide +kernel)
  | _ :: _ :: rest => exact Nat.le_add_left 2 rest.length

end Samples

end Ratspeak.Hub
