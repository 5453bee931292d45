import Ratspeak.Rrc.Wire

/-!
# A codec of values

Item heads carry a major type and an argument; a value is a head and what it
announces.  Integers beyond 64 bits, which the value type of the codec library
does not have, get a head of a reserved form, so that every value here has an
encoding of its own.
-/

namespace Ratspeak

open Library

namespace Value

/-! ## Heads -/

/-- The byte that begins an item. -/
def initial (major info : Nat) : UInt8 :=
  UInt8.ofNat (major * 32 + info)

/-- A number in network order. -/
def networkOrder (count number : Nat) : List UInt8 :=
  (littleEndian count number).reverse

def encodeHead (major argument : Nat) : List UInt8 :=
  if argument < 24 then [initial major argument]
  else if argument < 2 ^ 8 then
    initial major 24 :: networkOrder 1 argument
  else if argument < 2 ^ 16 then
    initial major 25 :: networkOrder 2 argument
  else if argument < 2 ^ 32 then
    initial major 26 :: networkOrder 4 argument
  else if argument < 2 ^ 64 then
    initial major 27 :: networkOrder 8 argument
  else
    initial major 28 :: (List.replicate argument 1 ++ [0])

/-- A number of so many bytes at the front, and the bytes after it. -/
def decodeNumber (count : Nat) (bytes : List UInt8) :
    Option (Nat × List UInt8) :=
  if bytes.length < count then none
  else some (ofLittleEndian (bytes.take count).reverse, bytes.drop count)

def decodeUnary : Nat → List UInt8 → Option (Nat × List UInt8)
  | _, [] => none
  | count, byte :: rest =>
      if byte = 0 then some (count, rest) else decodeUnary (count + 1) rest

def decodeArgument (info : Nat) (bytes : List UInt8) :
    Option (Nat × List UInt8) :=
  if info < 24 then some (info, bytes)
  else if info = 24 then decodeNumber 1 bytes
  else if info = 25 then decodeNumber 2 bytes
  else if info = 26 then decodeNumber 4 bytes
  else if info = 27 then decodeNumber 8 bytes
  else decodeUnary 0 bytes

/-- Major type, argument and the bytes after the head. -/
def decodeHead : List UInt8 → Option (Nat × Nat × List UInt8)
  | [] => none
  | byte :: rest =>
      (decodeArgument (byte.toNat % 32) rest).map fun (argument, rest) =>
        (byte.toNat / 32, argument, rest)

theorem decodeNumber_networkOrder {count number : Nat}
    (fits : number < 256 ^ count) (rest : List UInt8) :
    decodeNumber count (networkOrder count number ++ rest) =
      some (number, rest) := by
  have length : (networkOrder count number).length = count := by
    rw [networkOrder, List.length_reverse, length_littleEndian]
  have enough : ¬ (networkOrder count number ++ rest).length < count := by
    rw [List.length_append, length]
    omega
  rw [decodeNumber, if_neg enough, List.take_left' length,
    List.drop_left' length, networkOrder, List.reverse_reverse,
    ofLittleEndian_littleEndian fits]

theorem decodeUnary_replicate (count before : Nat) (rest : List UInt8) :
    decodeUnary before (List.replicate count 1 ++ [0] ++ rest) =
      some (before + count, rest) := by
  induction count generalizing before with
  | zero => rfl
  | succ count ih =>
      rw [List.replicate_succ, List.cons_append, List.cons_append,
        decodeUnary, if_neg (by decide), ih,
        Nat.add_right_comm, Nat.add_assoc]

theorem toNat_initial {major info : Nat} (small : major < 8) (fits : info < 32) :
    (initial major info).toNat = major * 32 + info := by
  have byte : major * 32 + info < 256 := by
    omega
  rw [initial, UInt8.toNat_ofNat_of_lt' byte]

theorem decodeHead_initial {major info : Nat} (small : major < 8)
    (fits : info < 32) (bytes : List UInt8) :
    decodeHead (initial major info :: bytes) =
      (decodeArgument info bytes).map fun (argument, rest) =>
        (major, argument, rest) := by
  have isMajor : (major * 32 + info) / 32 = major := by
    omega
  have isInfo : (major * 32 + info) % 32 = info := by
    omega
  rw [decodeHead, toNat_initial small fits, isMajor, isInfo]

/-- A head is read as it was written. -/
theorem decodeHead_encodeHead {major : Nat} (small : major < 8)
    (argument : Nat) (rest : List UInt8) :
    decodeHead (encodeHead major argument ++ rest) =
      some (major, argument, rest) := by
  unfold encodeHead
  split
  · rename_i short
    rw [List.singleton_append, decodeHead_initial small (by omega),
      decodeArgument, if_pos short]
    rfl
  split
  · rename_i fits
    rw [List.cons_append, decodeHead_initial small (by decide)]
    exact congrArg (Option.map _) (@decodeNumber_networkOrder 1 argument fits rest)
  split
  · rename_i fits
    rw [List.cons_append, decodeHead_initial small (by decide)]
    exact congrArg (Option.map _) (@decodeNumber_networkOrder 2 argument fits rest)
  split
  · rename_i fits
    rw [List.cons_append, decodeHead_initial small (by decide)]
    exact congrArg (Option.map _) (@decodeNumber_networkOrder 4 argument fits rest)
  split
  · rename_i fits
    rw [List.cons_append, decodeHead_initial small (by decide)]
    exact congrArg (Option.map _) (@decodeNumber_networkOrder 8 argument fits rest)
  · have unary := decodeUnary_replicate argument 0 rest
    rw [Nat.zero_add] at unary
    rw [List.cons_append, decodeHead_initial small (by decide)]
    exact congrArg (Option.map _) unary

theorem encodeHead_ne_nil (major argument : Nat) :
    encodeHead major argument ≠ [] := by
  unfold encodeHead
  repeat' split
  all_goals exact List.cons_ne_nil _ _

/-! ## Values -/

/-- A text from its bytes. -/
def decodeText (bytes : List UInt8) : Option String :=
  if valid : (ByteArray.mk bytes.toArray).IsValidUTF8 then
    some (.ofByteArray (.mk bytes.toArray) valid)
  else none

mutual

def encode : Value → List UInt8
  | integer (.ofNat value) => encodeHead 0 value
  | integer (.negSucc value) => encodeHead 1 value
  | bytes content => encodeHead 2 content.length ++ content
  | text content =>
      encodeHead 3 content.toByteArray.data.toList.length ++ content.toByteArray.data.toList
  | array values => encodeHead 4 values.length ++ encodeList values
  | map entries => encodeHead 5 entries.length ++ encodeMap entries
  | tag number value => encodeHead 6 number ++ value.encode
  | bool value => encodeHead 7 (if value then 21 else 20)
  | null => encodeHead 7 22
  | float bits => initial 7 27 :: networkOrder 8 bits.toNat

def encodeList : List Value → List UInt8
  | [] => []
  | value :: rest => value.encode ++ encodeList rest

def encodeMap : List (Value × Value) → List UInt8
  | [] => []
  | (key, value) :: rest => key.encode ++ value.encode ++ encodeMap rest

end

/-- So many items, each read by the same reader. -/
def decodeMany {Item : Type} (decodeItem : List UInt8 → Option (Item × List UInt8)) :
    Nat → List UInt8 → Option (List Item × List UInt8)
  | 0, data => some ([], data)
  | count + 1, data => do
      let (item, data) ← decodeItem data
      let (items, data) ← decodeMany decodeItem count data
      some (item :: items, data)

def decodePair (decodeItem : List UInt8 → Option (Value × List UInt8))
    (data : List UInt8) : Option ((Value × Value) × List UInt8) := do
  let (key, data) ← decodeItem data
  let (value, data) ← decodeItem data
  some ((key, value), data)

/-- Content of a length at the front of the bytes. -/
def decodeContent (length : Nat) (data : List UInt8) :
    Option (List UInt8 × List UInt8) :=
  if data.length < length then none
  else some (data.take length, data.drop length)

/-- What an item head announces. -/
def decodeBody (decodeItem : List UInt8 → Option (Value × List UInt8))
    (major argument : Nat) (data : List UInt8) :
    Option (Value × List UInt8) :=
  match major with
  | 0 => some (.integer (.ofNat argument), data)
  | 1 => some (.integer (.negSucc argument), data)
  | 2 => (decodeContent argument data).map fun (content, rest) => (.bytes content, rest)
  | 3 => do
      let (content, rest) ← decodeContent argument data
      let text ← decodeText content
      some (.text text, rest)
  | 4 => (decodeMany decodeItem argument data).map fun (values, rest) =>
      (.array values, rest)
  | 5 => (decodeMany (decodePair decodeItem) argument data).map
      fun (entries, rest) => (.map entries, rest)
  | 6 => (decodeItem data).map fun (value, rest) => (.tag argument value, rest)
  | _ =>
      match argument with
      | 20 => some (.bool false, data)
      | 21 => some (.bool true, data)
      | 22 => some (.null, data)
      | _ => none

/-- A value at the front of the bytes, of at most this depth. -/
def decodeValue : Nat → List UInt8 → Option (Value × List UInt8)
  | 0, _ => none
  | depth + 1, data =>
      if data.head? = some (initial 7 27) then
        (decodeNumber 8 data.tail).map fun (number, rest) =>
          (.float (BitVec.ofNat 64 number), rest)
      else
        (decodeHead data).bind fun (major, argument, rest) =>
          decodeBody (decodeValue depth) major argument rest

/-! ## Values are read as they were written -/

/-- No head begins like a float. -/
theorem head_ne_float {major argument : Nat} (rest : List UInt8)
    (noFloat : major < 7 ∨ major = 7 ∧ argument < 24) :
    (encodeHead major argument ++ rest).head? ≠ some (initial 7 27) := by
  have float : (initial 7 27).toNat = 251 :=
    toNat_initial (by decide) (by decide)
  have differs : ∀ info < 32, (major = 7 → info < 24) →
      ∀ bytes, (initial major info :: bytes).head? ≠
        some (initial 7 27) := by
    intro info fits short bytes same
    have number := congrArg UInt8.toNat (Option.some.inj same)
    rw [float, toNat_initial (by omega) fits] at number
    omega
  unfold encodeHead
  split
  · rename_i small
    exact differs argument (by omega) (fun _ => small) _
  · rename_i large
    have notSeven : major = 7 → False := by
      omega
    repeat' split
    all_goals exact differs _ (by decide) (fun seven =>
      (notSeven seven).elim) _

theorem decodeValue_head {major argument : Nat} (depth : Nat) (rest : List UInt8)
    (noFloat : major < 7 ∨ major = 7 ∧ argument < 24) :
    decodeValue (depth + 1) (encodeHead major argument ++ rest) =
      decodeBody (decodeValue depth) major argument rest := by
  rw [decodeValue, if_neg (head_ne_float rest noFloat), decodeHead_encodeHead (by omega)]
  rfl

theorem decodeContent_append (content rest : List UInt8) :
    decodeContent content.length (content ++ rest) =
      some (content, rest) := by
  have enough : ¬ (content ++ rest).length < content.length := by
    rw [List.length_append]
    omega
  rw [decodeContent, if_neg enough, List.take_left, List.drop_left]

theorem decodeText_toByteArray (content : String) :
    decodeText content.toByteArray.data.toList = some content := by
  unfold decodeText
  exact dif_pos content.isValidUTF8

/-- What comes after a head is shorter. -/
theorem exists_less {major argument depth : Nat} {body : List UInt8}
    (enough : (encodeHead major argument ++ body).length ≤ depth) :
    ∃ less, depth = less + 1 ∧ body.length ≤ less := by
  have some_byte := List.length_pos_iff.mpr (encodeHead_ne_nil major argument)
  rw [List.length_append] at enough
  exact ⟨depth - 1, by omega, by omega⟩

/-- An item that is a head and nothing more. -/
theorem decodeValue_bare {major argument depth : Nat} {value : Value} (rest : List UInt8)
    (noFloat : major < 7 ∨ major = 7 ∧ argument < 24)
    (enough : (encodeHead major argument).length ≤ depth)
    (body : ∀ less, decodeBody (decodeValue less) major argument rest = some (value, rest)) :
    decodeValue depth (encodeHead major argument ++ rest) =
      some (value, rest) := by
  rw [← List.append_nil (encodeHead major argument)] at enough
  obtain ⟨less, isDepth, -⟩ := exists_less enough
  rw [isDepth, decodeValue_head less rest noFloat, body]

mutual

theorem decodeValue_encode : ∀ (value : Value) (depth : Nat)
    (rest : List UInt8), value.encode.length ≤ depth →
    decodeValue depth (value.encode ++ rest) = some (value, rest)
  | integer (.ofNat _), _, rest, enough =>
      decodeValue_bare rest (Or.inl (by decide)) enough fun _ => rfl
  | integer (.negSucc _), _, rest, enough =>
      decodeValue_bare rest (Or.inl (by decide)) enough fun _ => rfl
  | null, _, rest, enough =>
      decodeValue_bare rest (Or.inr (by decide)) enough fun _ => rfl
  | bool false, _, rest, enough =>
      decodeValue_bare rest (Or.inr (by decide)) enough fun _ => rfl
  | bool true, _, rest, enough =>
      decodeValue_bare rest (Or.inr (by decide)) enough fun _ => rfl
  | bytes content, depth, rest, enough => by
      rw [encode] at enough ⊢
      obtain ⟨less, isDepth, -⟩ := exists_less enough
      rw [isDepth, List.append_assoc,
        decodeValue_head less _ (Or.inl (by decide)), decodeBody,
        decodeContent_append]
      rfl
  | text content, depth, rest, enough => by
      rw [encode] at enough ⊢
      obtain ⟨less, isDepth, -⟩ := exists_less enough
      rw [isDepth, List.append_assoc,
        decodeValue_head less _ (Or.inl (by decide)), decodeBody,
        decodeContent_append]
      dsimp only [bind, Option.bind]
      rw [decodeText_toByteArray]
  | array values, depth, rest, enough => by
      rw [encode] at enough ⊢
      obtain ⟨less, isDepth, shorter⟩ := exists_less enough
      rw [isDepth, List.append_assoc,
        decodeValue_head less _ (Or.inl (by decide)), decodeBody,
        decodeMany_encodeList values less rest shorter]
      rfl
  | map entries, depth, rest, enough => by
      rw [encode] at enough ⊢
      obtain ⟨less, isDepth, shorter⟩ := exists_less enough
      rw [isDepth, List.append_assoc,
        decodeValue_head less _ (Or.inl (by decide)), decodeBody,
        decodeMany_encodeMap entries less rest shorter]
      rfl
  | tag number value, depth, rest, enough => by
      rw [encode] at enough ⊢
      obtain ⟨less, isDepth, shorter⟩ := exists_less enough
      rw [isDepth, List.append_assoc,
        decodeValue_head less _ (Or.inl (by decide)), decodeBody,
        decodeValue_encode value less rest shorter]
      rfl
  | float bits, depth, rest, enough => by
      rw [encode] at enough ⊢
      obtain ⟨less, isDepth⟩ : ∃ less, depth = less + 1 := by
        rw [List.length_cons] at enough
        exact ⟨depth - 1, by omega⟩
      have number := @decodeNumber_networkOrder 8 bits.toNat bits.isLt rest
      rw [isDepth, List.cons_append, decodeValue, List.head?_cons,
        if_pos rfl, List.tail_cons, number, Option.map_some]
      dsimp only
      rw [BitVec.ofNat_toNat, BitVec.setWidth_eq]

theorem decodeMany_encodeList : ∀ (values : List Value) (depth : Nat)
    (rest : List UInt8), (encodeList values).length ≤ depth →
    decodeMany (decodeValue depth) values.length
      (encodeList values ++ rest) = some (values, rest)
  | [], _, _, _ => rfl
  | value :: others, depth, rest, enough => by
      rw [encodeList, List.length_append] at enough
      rw [encodeList, List.length_cons, decodeMany, List.append_assoc,
        decodeValue_encode value depth _ (by omega)]
      dsimp only [bind, Option.bind]
      rw [decodeMany_encodeList others depth rest (by omega)]

theorem decodeMany_encodeMap : ∀ (entries : List (Value × Value))
    (depth : Nat) (rest : List UInt8),
    (encodeMap entries).length ≤ depth →
    decodeMany (decodePair (decodeValue depth)) entries.length
      (encodeMap entries ++ rest) = some (entries, rest)
  | [], _, _, _ => rfl
  | (key, value) :: others, depth, rest, enough => by
      rw [encodeMap, List.length_append, List.length_append] at enough
      rw [encodeMap, List.length_cons, decodeMany, decodePair,
        List.append_assoc, List.append_assoc,
        decodeValue_encode key depth _ (by omega)]
      dsimp only [bind, Option.bind]
      rw [decodeValue_encode value depth _ (by omega)]
      dsimp only [bind, Option.bind]
      rw [decodeMany_encodeMap others depth rest (by omega)]

end

end Value

/-! ## The codec -/

/-- A codec that reads at any depth. -/
def plainCbor : Cbor where
  intoWriter value := .ok value.encode
  fromReader data :=
    match Value.decodeValue data.length data with
    | none => .error "Semantic(None, \"invalid item\")"
    | some (value, rest) => .ok (value, data.length - rest.length)

theorem plainCbor_correct : plainCbor.Correct := by
  intro value
  have decoded := value.decodeValue_encode value.encode.length [] (Nat.le_refl _)
  rw [List.append_nil] at decoded
  refine ⟨value.encode, rfl, ?_⟩
  simp only [plainCbor, decoded, List.length_nil, Nat.sub_zero]

end Ratspeak
