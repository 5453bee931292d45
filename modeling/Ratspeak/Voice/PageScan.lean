import Ratspeak.Voice.PhysicalGrammar
import Ratspeak.Voice.RoundTrip

/-!
# The scan of the pages in machine words

The validation of a physical stream as its loop runs: a cursor into the bytes,
slices between two places, sums in a machine word.  A slice beyond the bytes,
a sum that leaves its word where nothing catches it, and a loop that does not
end all come out as no result.  None of them happens: the scan yields what
the validation over lists of bytes yields.
-/

namespace Ratspeak

open Library Ogg

/-- The numbers of a machine's addresses, of at least 32 bits. -/
structure Usize where
  max : Nat
  wide : 4294967295 ≤ max

/-- A result or an error; none where the program would stop with a panic. -/
abbrev Scan (Value : Type) : Type := ExceptT String Option Value

namespace Scan

variable {Value Next : Type}

def crash : Scan Value :=
  ExceptT.mk none

/-- What has come through without a panic. -/
def ofExcept (result : Except String Value) : Scan Value :=
  ExceptT.mk (some result)

def fail (message : String) : Scan Value :=
  ofExcept (.error message)

/-- Addition whose overflow is an error. -/
def checkedAdd (usize : Usize) (left right : Nat) (message : String) :
    Scan Nat :=
  if left + right ≤ usize.max then ofExcept (.ok (left + right))
  else fail message

/-- Addition whose overflow is a panic. -/
def plainAdd (usize : Usize) (left right : Nat) : Scan Nat :=
  if left + right ≤ usize.max then ofExcept (.ok (left + right)) else crash

/-- The end of a part of the bytes that begins at a place. -/
def stopAt (usize : Usize) (data : List UInt8) (start count : Nat)
    (message : String) : Scan Nat := do
  let stop ← checkedAdd usize start count message
  if stop ≤ data.length then ofExcept (.ok stop) else fail message

/-- A slice; beyond the bytes it is a panic. -/
def sliceOf (data : List UInt8) (start stop : Nat) : Scan (List UInt8) :=
  if start ≤ stop ∧ stop ≤ data.length then
    ofExcept (.ok ((data.drop start).take (stop - start)))
  else crash

theorem ok_bind (value : Value) (next : Value → Scan Next) :
    (ofExcept (.ok value) >>= next) = next value := rfl

theorem checkedAdd_eq {usize : Usize} {left right : Nat}
    (fits : left + right ≤ usize.max) (message : String) :
    checkedAdd usize left right message = ofExcept (.ok (left + right)) :=
  if_pos fits

theorem plainAdd_eq {usize : Usize} {left right : Nat} (fits : left + right ≤ usize.max) :
    plainAdd usize left right = ofExcept (.ok (left + right)) :=
  if_pos fits

theorem stopAt_eq {usize : Usize} {data : List UInt8} {start count : Nat}
    (fits : start + count ≤ usize.max) (message : String) :
    stopAt usize data start count message =
      if start + count ≤ data.length then ofExcept (.ok (start + count))
      else fail message := by
  rw [stopAt, checkedAdd_eq fits, ok_bind]

theorem sliceOf_eq {data : List UInt8} {start stop : Nat}
    (ordered : start ≤ stop) (inside : stop ≤ data.length) :
    sliceOf data start stop = ofExcept (.ok ((data.drop start).take (stop - start))) :=
  if_pos ⟨ordered, inside⟩

end Scan

namespace VoicePlatform

variable (platform : VoicePlatform) (usize : Usize)

def scanSegment (lacing : Lacing) (length : UInt8) : Scan Lacing := do
  let (partialPacketBytes, completedPackets, completedOnPage) := lacing
  let partialPacketBytes ← Scan.checkedAdd usize partialPacketBytes
    length.toNat "Voice message Ogg packet size overflows"
  if platform.packetLimit completedPackets < partialPacketBytes then
    Scan.fail "Voice message Ogg packet exceeds its size limit"
  else if length < 255 then
    let completedPackets ← Scan.plainAdd usize completedPackets 1
    if maxPacketCount + 2 < completedPackets then
      Scan.fail "Voice message Ogg packet count exceeds the limit"
    else Scan.ofExcept (.ok (0, completedPackets, true))
  else
    Scan.ofExcept (.ok (partialPacketBytes, completedPackets, completedOnPage))

/-- One page from the cursor on, and the cursor behind it. -/
def scanPage (data : List UInt8) (stream : PhysicalStream)
    (cursor : Nat) : Scan (PhysicalStream × Nat) := do
  let headerEnd ← Scan.stopAt usize data cursor 27 "Voice message Ogg page header is truncated"
  let header ← Scan.sliceOf data cursor headerEnd
  let flags := header.getD 5 0
  if header.take 4 ≠ [0x4F, 0x67, 0x67, 0x53] ||
      header.getD 4 0 ≠ 0 || flags &&& ~~~0x07 ≠ 0 then
    Scan.fail "Voice message Ogg page header is invalid"
  else if (flags &&& 0x01 ≠ 0) ≠ (stream.partialPacketBytes ≠ 0) then
    Scan.fail "Voice message Ogg continuation flag is invalid"
  else
  let pageSerial := ofLittleEndian ((header.drop 14).take 4)
  let sequence := ofLittleEndian ((header.drop 18).take 4)
  if stream.pageCount = 0 && (flags &&& 0x02 = 0 || sequence ≠ 0) then
    Scan.fail "Voice message Ogg stream does not begin correctly"
  else if stream.pageCount ≠ 0 &&
      (flags &&& 0x02 ≠ 0 || stream.serial ≠ some pageSerial) then
    Scan.fail "Voice message contains chained or multiplexed Ogg streams"
  else if sequence ≠ stream.expectedSequence then
    Scan.fail "Voice message Ogg page sequence is invalid"
  else if 2 ^ 32 ≤ stream.expectedSequence + 1 then
    Scan.fail "Voice message Ogg page sequence overflows"
  else
  let segmentCount := (header.getD 26 0).toNat
  let segmentsEnd ← Scan.stopAt usize data headerEnd segmentCount
    "Voice message Ogg lacing table is truncated"
  let segments ← Scan.sliceOf data headerEnd segmentsEnd
  let (partialPacketBytes, completedPackets, completedOnPage) ←
    segments.foldlM (platform.scanSegment usize)
      (stream.partialPacketBytes, stream.completedPackets, false)
  let bodyLen ← segments.foldlM
    (fun total length => Scan.checkedAdd usize total length.toNat
      "Voice message Ogg page size overflows") 0
  let pageGranule := ofLittleEndian ((header.drop 6).take 8)
  if !completedOnPage && pageGranule ≠ 2 ^ 64 - 1 then
    Scan.fail "Voice message Ogg continuation page granule is invalid"
  else if completedOnPage && pageGranule = 2 ^ 64 - 1 then
    Scan.fail "Voice message Ogg completed-packet granule is invalid"
  else
  let cursor ← Scan.stopAt usize data segmentsEnd bodyLen
    "Voice message Ogg page body is truncated"
  let pageCount ← Scan.plainAdd usize stream.pageCount 1
  Scan.ofExcept (.ok
    ({ serial :=
        if stream.pageCount = 0 then some pageSerial else stream.serial
       expectedSequence := stream.expectedSequence + 1
       pageCount
       sawEos := flags &&& 0x04 ≠ 0
       partialPacketBytes
       completedPackets }, cursor))

/-- The loop, for at most so many rounds. -/
def scanPages (data : List UInt8) :
    Nat → PhysicalStream → Nat → Scan PhysicalStream
  | 0, _, _ => Scan.crash
  | rounds + 1, stream, cursor =>
      if cursor < data.length then
        if stream.sawEos || maxPageCount ≤ stream.pageCount then
          Scan.fail "Voice message contains multiple or excessive Ogg streams"
        else do
          let (stream, cursor) ← platform.scanPage usize data stream cursor
          scanPages data rounds stream cursor
      else Scan.ofExcept (.ok stream)

def scanPhysicalStream (rounds : Nat) (data : List UInt8) : Scan Nat := do
  if data.length < 27 || voiceMemoMaxAudioBytes < data.length then
    Scan.fail "Voice message Ogg size is invalid"
  else
  let stream ← platform.scanPages usize data rounds
    { serial := none
      expectedSequence := 0
      pageCount := 0
      sawEos := false
      partialPacketBytes := 0
      completedPackets := 0 } 0
  if !stream.sawEos || stream.partialPacketBytes ≠ 0 ||
      stream.completedPackets < 3 then
    Scan.fail "Voice message Ogg stream has no end marker"
  else
    match stream.serial with
    | none => Scan.fail "Voice message Ogg stream is empty"
    | some serial => Scan.ofExcept (.ok serial)

/-! ## The scan does not leave its words -/

private theorem map_unless {Value Next : Type} {refused : Prop}
    [Decidable refused] {message : String}
    {otherwise : Except String Value} {function : Value → Next} :
    Scan.ofExcept ((if refused then .error message else otherwise).map
        function) =
      if refused then Scan.fail message
      else Scan.ofExcept (otherwise.map function) := by
  by_cases holds : refused
  · rw [if_pos holds, if_pos holds]
    rfl
  · rw [if_neg holds, if_neg holds]

variable {platform usize}

theorem validateSegment_bounds {before after : Lacing} {length : UInt8}
    (accepted : platform.validateSegment before length = .ok after) :
    after.1 ≤ before.1 + length.toNat ∧ after.2.1 ≤ before.2.1 + 1 ∧
      (before.2.1 ≤ maxPacketCount + 2 →
        after.2.1 ≤ maxPacketCount + 2) := by
  obtain ⟨unfinished, completed, onPage⟩ := before
  unfold validateSegment at accepted
  dsimp only at accepted
  split at accepted
  next =>
    cases accepted
  split at accepted
  next =>
    split at accepted
    next =>
      cases accepted
    next few =>
      cases accepted
      exact ⟨Nat.zero_le _, Nat.le_refl _, fun _ => Nat.le_of_not_lt few⟩
  next =>
    cases accepted
    exact ⟨Nat.le_refl _, Nat.le_add_right _ _, fun few => few⟩

theorem scanSegment_eq {lacing : Lacing} {length : UInt8}
    (small : lacing.1 + length.toNat ≤ usize.max) (few : lacing.2.1 + 1 ≤ usize.max) :
    platform.scanSegment usize lacing length =
      Scan.ofExcept (platform.validateSegment lacing length) := by
  obtain ⟨unfinished, completed, onPage⟩ := lacing
  unfold scanSegment validateSegment
  dsimp only
  rw [Scan.checkedAdd_eq small, Scan.ok_bind]
  by_cases large : platform.packetLimit completed < unfinished + length.toNat
  · rw [if_pos large, if_pos large]
    rfl
  · rw [if_neg large, if_neg large]
    by_cases short : length < 255
    · rw [if_pos short, if_pos short, Scan.plainAdd_eq few, Scan.ok_bind]
      by_cases many : maxPacketCount + 2 < completed + 1
      · rw [if_pos many, if_pos many]
        rfl
      · rw [if_neg many, if_neg many]
    · rw [if_neg short, if_neg short]

theorem foldlM_scanSegment_eq {segments : List UInt8} {lacing : Lacing}
    (small : lacing.1 + (segments.map UInt8.toNat).sum ≤ usize.max)
    (few : lacing.2.1 + segments.length ≤ usize.max) :
    segments.foldlM (platform.scanSegment usize) lacing =
      Scan.ofExcept
        (segments.foldlM platform.validateSegment lacing) := by
  induction segments generalizing lacing with
  | nil => rfl
  | cons length rest ih =>
      rw [List.map_cons, List.sum_cons] at small
      rw [List.length_cons] at few
      rw [List.foldlM_cons, List.foldlM_cons, scanSegment_eq (by omega) (by omega)]
      cases first : platform.validateSegment lacing length with
      | error message => rfl
      | ok after =>
          have bounds := validateSegment_bounds first
          exact ih (by omega) (by omega)

theorem foldlM_bounds {segments : List UInt8} {before after : Lacing}
    (few : before.2.1 ≤ maxPacketCount + 2)
    (accepted : segments.foldlM platform.validateSegment before = .ok after) :
    after.1 ≤ before.1 + (segments.map UInt8.toNat).sum ∧
      after.2.1 ≤ maxPacketCount + 2 := by
  induction segments generalizing before with
  | nil =>
      cases accepted
      exact ⟨Nat.le_add_right _ _, few⟩
  | cons length rest ih =>
      rw [List.foldlM_cons] at accepted
      obtain ⟨middle, first, later⟩ := bind_eq_ok accepted
      have bounds := validateSegment_bounds first
      have others := ih (bounds.2.2 few) later
      rw [List.map_cons, List.sum_cons]
      omega

theorem foldlM_checkedAdd_eq {segments : List UInt8} {total : Nat}
    (small : total + (segments.map UInt8.toNat).sum ≤ usize.max) :
    segments.foldlM
        (fun total length => Scan.checkedAdd usize total length.toNat
          "Voice message Ogg page size overflows") total =
      Scan.ofExcept
        (.ok (total + (segments.map UInt8.toNat).sum)) := by
  induction segments generalizing total with
  | nil => rfl
  | cons length rest ih =>
      rw [List.map_cons, List.sum_cons] at small ⊢
      rw [List.foldlM_cons, Scan.checkedAdd_eq (by omega), Scan.ok_bind,
        ih (by omega), Nat.add_assoc]

theorem sum_toNat_le (segments : List UInt8) :
    (segments.map UInt8.toNat).sum ≤ 255 * segments.length := by
  induction segments with
  | nil => exact Nat.zero_le _
  | cons length rest ih =>
      have byte := length.toNat_lt
      rw [List.map_cons, List.sum_cons, List.length_cons]
      omega

/-- The cursor is in the bytes, what is unfinished lies before it, and the
counts are within their limits. -/
structure InWords (data : List UInt8) (stream : PhysicalStream)
    (cursor : Nat) : Prop where
  short : data.length ≤ voiceMemoMaxAudioBytes
  inside : cursor ≤ data.length
  unfinished : stream.partialPacketBytes ≤ cursor
  completed : stream.completedPackets ≤ maxPacketCount + 2
  pages : stream.pageCount ≤ maxPageCount

theorem scanPage_eq {data : List UInt8} {stream : PhysicalStream}
    {cursor : Nat} (words : InWords data stream cursor) :
    platform.scanPage usize data stream cursor =
      Scan.ofExcept
        ((platform.validatePage stream (data.drop cursor)).map
          fun result => (result.1, data.length - result.2.length)) := by
  have wide := usize.wide
  have short : data.length ≤ 1000000 := words.short
  have inside := words.inside
  have unfinished := words.unfinished
  have completed : stream.completedPackets ≤ 120002 := words.completed
  have pages : stream.pageCount ≤ 120002 := words.pages
  unfold scanPage validatePage
  dsimp only
  rw [Scan.stopAt_eq (by omega)]
  by_cases long : cursor + 27 ≤ data.length
  · have enough : ¬(data.drop cursor).length < 27 := by
      rw [List.length_drop]
      omega
    rw [if_pos long, Scan.ok_bind, Scan.sliceOf_eq (by omega) long,
      Scan.ok_bind, Nat.add_sub_cancel_left, if_neg enough, map_unless,
      map_unless, map_unless, map_unless, map_unless, map_unless]
    refine ite_congr rfl (fun _ => rfl) fun _ => ?_
    refine ite_congr rfl (fun _ => rfl) fun _ => ?_
    refine ite_congr rfl (fun _ => rfl) fun _ => ?_
    refine ite_congr rfl (fun _ => rfl) fun _ => ?_
    refine ite_congr rfl (fun _ => rfl) fun _ => ?_
    refine ite_congr rfl (fun _ => rfl) fun _ => ?_
    generalize countEq : (((data.drop cursor).take 27).getD 26 0).toNat = count
    have counted : count ≤ 255 := by
      rw [← countEq]
      exact Nat.le_of_lt_succ (UInt8.toNat_lt _)
    rw [Scan.stopAt_eq (by omega), List.drop_drop, map_unless]
    by_cases fits : cursor + 27 + count ≤ data.length
    · have tabled : ¬(data.drop (cursor + 27)).length < count := by
        rw [List.length_drop]
        omega
      rw [if_pos fits, if_neg tabled, Scan.ok_bind,
        Scan.sliceOf_eq (by omega) fits, Scan.ok_bind,
        Nat.add_sub_cancel_left]
      generalize tableEq : (data.drop (cursor + 27)).take count = segments
      have sized : segments.length ≤ 255 := by
        rw [← tableEq]
        exact Nat.le_trans (List.length_take_le _ _) counted
      have total := sum_toNat_le segments
      rw [foldlM_scanSegment_eq (by dsimp only; omega)
          (by dsimp only; omega),
        foldlM_checkedAdd_eq (by omega), Nat.zero_add]
      cases laced : segments.foldlM platform.validateSegment
          (stream.partialPacketBytes, stream.completedPackets, false) with
      | error message => rfl
      | ok lacing =>
          rw [Scan.ok_bind, Scan.ok_bind, ok_bind, map_unless, map_unless, map_unless]
          refine ite_congr rfl (fun _ => rfl) fun _ => ?_
          refine ite_congr rfl (fun _ => rfl) fun _ => ?_
          rw [Scan.stopAt_eq (by omega), List.drop_drop,
            List.length_drop]
          by_cases bodied : cursor + 27 + count + (segments.map UInt8.toNat).sum ≤ data.length
          · have left : data.length - (data.length -
                (cursor + 27 + count + (segments.map UInt8.toNat).sum)) =
                cursor + 27 + count +
                  (segments.map UInt8.toNat).sum := by
              omega
            have whole : ¬data.length - (cursor + 27 + count) <
                (segments.map UInt8.toNat).sum := by
              omega
            rw [if_pos bodied, if_neg whole, Scan.ok_bind,
              Scan.plainAdd_eq (by omega), Scan.ok_bind]
            simp only [Except.map, List.drop_drop, List.length_drop, left]
          · have cut : data.length - (cursor + 27 + count) <
                (segments.map UInt8.toNat).sum := by
              omega
            rw [if_neg bodied, if_pos cut]
            rfl
    · have cut : (data.drop (cursor + 27)).length < count := by
        rw [List.length_drop]
        omega
      rw [if_neg fits, if_pos cut]
      rfl
  · have few : (data.drop cursor).length < 27 := by
      rw [List.length_drop]
      omega
    rw [if_neg long, if_pos few]
    rfl

/-- An accepted page moves the cursor forward to what is left, and what the
scan knows stays within its words. -/
theorem InWords.validatePage {data rest : List UInt8}
    {stream next : PhysicalStream} {cursor : Nat} (words : InWords data stream cursor)
    (few : stream.pageCount < maxPageCount)
    (accepted : platform.validatePage stream (data.drop cursor) = .ok (next, rest)) :
    ∃ later, later = data.length - rest.length ∧ cursor < later ∧
      data.drop later = rest ∧ next.pageCount = stream.pageCount + 1 ∧
      InWords data next later := by
  obtain ⟨page, behind, split⟩ :=
    platform.exists_page_of_validatePage accepted
  rw [split] at accepted
  obtain ⟨steps, rfl⟩ := platform.validatePage_eq_ok_iff.mp accepted
  obtain ⟨onPage, folded, _⟩ := steps.segments
  have bounds := foldlM_bounds words.completed folded
  have counted : next.pageCount = stream.pageCount + 1 := by
    rw [steps.next]
  have inside := words.inside
  have unfinished := words.unfinished
  have total := congrArg List.length split
  rw [List.length_drop, List.length_append] at total
  have size : page.encode.length =
      27 + page.segments.length + (page.segments.map UInt8.toNat).sum := by
    rw [RawPage.encode, List.length_append, List.length_append, page.length_header, page.whole]
  have place : cursor + page.encode.length = data.length - rest.length := by
    omega
  refine ⟨cursor + page.encode.length, place, by omega, ?_, counted,
    ⟨words.short, by omega, ?_, bounds.2, by omega⟩⟩
  · rw [← List.drop_drop, split, List.drop_left]
  · have least := bounds.1
    dsimp only at least
    omega

/-- The loop ends within as many rounds as there are bytes left and one more,
with what the validation of the pages yields. -/
theorem scanPages_eq {data : List UInt8} {rounds : Nat} :
    ∀ {stream : PhysicalStream} {cursor : Nat},
      InWords data stream cursor → data.length < cursor + rounds →
      platform.scanPages usize data rounds stream cursor =
        Scan.ofExcept
          (platform.validatePages (maxPageCount - stream.pageCount) stream
            (data.drop cursor)) := by
  induction rounds with
  | zero =>
      intro stream cursor words enough
      have inside := words.inside
      omega
  | succ rounds ih =>
      intro stream cursor words enough
      unfold scanPages validatePages
      by_cases left : cursor < data.length
      · have bytes : (data.drop cursor).isEmpty = false := by
          rw [List.isEmpty_eq_false_iff, ne_eq, List.drop_eq_nil_iff]
          omega
        rw [if_pos left, bytes, if_neg Bool.false_ne_true]
        by_cases ended : stream.sawEos = true
        · rw [ended, if_pos rfl, Bool.true_or, if_pos rfl]
          rfl
        · rw [Bool.not_eq_true] at ended
          rw [ended, if_neg Bool.false_ne_true, Bool.false_or]
          by_cases few : stream.pageCount < maxPageCount
          · have more : maxPageCount - stream.pageCount =
                (maxPageCount - (stream.pageCount + 1)) + 1 := by
              omega
            rw [decide_eq_false (Nat.not_le.mpr few),
              if_neg Bool.false_ne_true, scanPage_eq words, more]
            cases accepted : platform.validatePage stream (data.drop cursor) with
            | error message => rfl
            | ok result =>
                obtain ⟨next, rest⟩ := result
                obtain ⟨later, place, forward, behind, counted, kept⟩ :=
                  words.validatePage few accepted
                have again := ih kept (by omega)
                rw [counted, behind] at again
                rw [Except.map, Scan.ok_bind, ← place]
                exact again
          · have none : maxPageCount - stream.pageCount = 0 := by
              omega
            rw [decide_eq_true (Nat.le_of_not_lt few), if_pos rfl, none]
            rfl
      · have bytes : (data.drop cursor).isEmpty = true := by
          rw [List.isEmpty_iff, List.drop_eq_nil_iff]
          omega
        rw [if_neg left, bytes, if_pos rfl]

/-- The scan never leaves its words and never runs out of rounds; it yields
what the validation yields. -/
theorem scanPhysicalStream_eq (platform : VoicePlatform) (usize : Usize) (data : List UInt8) :
    platform.scanPhysicalStream usize (data.length + 1) data =
      Scan.ofExcept (platform.validatePhysicalStream data) := by
  unfold scanPhysicalStream validatePhysicalStream
  by_cases sized : (data.length < 27 || voiceMemoMaxAudioBytes < data.length) = true
  · rw [if_pos sized, if_pos sized]
    rfl
  · rw [if_neg sized, if_neg sized]
    rw [Bool.or_eq_true, decide_eq_true_eq, decide_eq_true_eq, not_or,
      Nat.not_lt, Nat.not_lt] at sized
    have words : InWords data ⟨none, 0, 0, false, 0, 0⟩ 0 :=
      ⟨sized.2, Nat.zero_le _, Nat.le_refl _, Nat.zero_le _, Nat.zero_le _⟩
    have enough : data.length < 0 + (data.length + 1) := by
      omega
    rw [scanPages_eq words enough, List.drop_zero, Nat.sub_zero]
    cases platform.validatePages maxPageCount ⟨none, 0, 0, false, 0, 0⟩ data with
    | error message => rfl
    | ok stream =>
        rw [Scan.ok_bind, ok_bind]
        by_cases ended : (!stream.sawEos ||
            stream.partialPacketBytes ≠ 0 ||
            stream.completedPackets < 3) = true
        · rw [if_pos ended, if_pos ended]
          rfl
        · rw [if_neg ended, if_neg ended]
          cases stream.serial with
          | none => rfl
          | some serial => rfl

/-- The scan always comes to an end without a panic, and accepts the bytes of
a stream of the grammar that has some audio, and nothing else. -/
theorem scanPhysicalStream_ok_iff (platform : VoicePlatform)
    (usize : Usize) (data : List UInt8) :
    (∃ result,
      platform.scanPhysicalStream usize (data.length + 1) data = Scan.ofExcept result) ∧
    ∀ serial,
      platform.scanPhysicalStream usize (data.length + 1) data =
          Scan.ofExcept (.ok serial) ↔
        data.length ≤ voiceMemoMaxAudioBytes ∧
          ∃ pages, data = rawBytes pages ∧
            platform.IsPhysicalStream pages ∧ HasAudio pages ∧
              ∀ page ∈ pages, page.serial.toNat = serial := by
  refine ⟨⟨_, scanPhysicalStream_eq platform usize data⟩, ?_⟩
  intro serial
  rw [scanPhysicalStream_eq, ← platform.validatePhysicalStream_eq_ok_iff data serial]
  constructor
  · intro accepted
    exact Option.some.inj accepted
  · intro accepted
    rw [accepted]

/-- One page, the first and the last, with the two headers and no audio. -/
def headersOnly : RawPage where
  continued := false
  first := true
  last := true
  granule := 0
  serial := 7
  sequence := 0
  checksum := 0
  segments := [1, 1]
  body := [0, 0]
  short := by decide
  whole := by decide

private theorem eq_nil_of_singleton {front back : List RawPage}
    {page other : RawPage} (split : [page] = front ++ other :: back) :
    front = [] ∧ other = page ∧ back = [] := by
  cases front with
  | nil =>
      cases split
      exact ⟨rfl, rfl, rfl⟩
  | cons first rest =>
      rw [List.cons_append] at split
      have none := (List.cons.inj split).2
      cases rest <;> cases none

/-- The grammar alone does not decide: the page of the two headers is of the
grammar, and is refused. -/
theorem scanPhysicalStream_headersOnly :
    pagePlatform.IsPhysicalStream [headersOnly] ∧
      (rawBytes [headersOnly]).length ≤ voiceMemoMaxAudioBytes ∧
      ∀ (usize : Usize) (serial : Nat),
        pagePlatform.scanPhysicalStream usize
            ((rawBytes [headersOnly]).length + 1)
            (rawBytes [headersOnly]) ≠
          Scan.ofExcept (.ok serial) := by
  refine ⟨⟨?_, ?_, ?_, ?_, ?_, ?_, ?_, ?_⟩, by decide, ?_⟩
  · intro page among other amongToo
    rw [List.mem_singleton.mp among, List.mem_singleton.mp amongToo]
  · intro front page back split
    obtain ⟨rfl, rfl, rfl⟩ := eq_nil_of_singleton split
    rfl
  · intro front page back split
    obtain ⟨rfl, rfl, rfl⟩ := eq_nil_of_singleton split
    exact ⟨fun _ => rfl, fun _ => rfl⟩
  · intro front page back split
    obtain ⟨rfl, rfl, rfl⟩ := eq_nil_of_singleton split
    exact ⟨fun _ => rfl, fun _ => rfl⟩
  · intro front page back split
    obtain ⟨rfl, rfl, rfl⟩ := eq_nil_of_singleton split
    decide
  · intro page among
    rw [List.mem_singleton.mp among]
    decide
  · refine ⟨⟨by decide, by decide, trivial⟩, by decide, by decide⟩
  · decide
  · intro usize serial accepted
    rw [scanPhysicalStream_eq] at accepted
    have refused : pagePlatform.validatePhysicalStream
        (rawBytes [headersOnly]) =
          .error "Voice message Ogg stream has no end marker" := by
      rfl
    rw [refused] at accepted
    cases accepted

end VoicePlatform

end Ratspeak
