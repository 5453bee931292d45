import Ratspeak.Voice.Reading

/-!
# What a reader recovers

The reader learns the granule offset from the first page that ends before the
last one, and only then from the pages alone.  A stream of a single page leaves
it to guess: it takes the offset to be what the last granule position leaves.
The same pages bound how much can be trimmed at the end.  From this follows
exactly when packets and timing are read as they were written.
-/

namespace Ratspeak

open Library Ogg

namespace VoicePlatform

variable (platform : VoicePlatform)

/-! ## Audio in progress -/

/-- What the reader knows before the last packet: the samples up to the last
page that ended, if one has. -/
def inProgress (granuleOffset48k : Nat) (packets : List (List UInt8))
    (granule48k : Nat) (boundary : Option Nat) : Audio where
  packets := packets
  decodedSamples48k := granule48k
  previousPageGranule48k := boundary.map (granuleOffset48k + ·)
  granuleOffset48k := boundary.map fun _ => granuleOffset48k

/-- The last page that ended, before the packet of an index. -/
def boundaryAfter (index granule48k : Nat) (boundary : Option Nat) :
    Option Nat :=
  if index % packetsPerPage = 0 then some granule48k else boundary

/-- The last page that ends before the last packet. -/
def lastBoundary : Nat → Nat → Option Nat → List (List UInt8) → Option Nat
  | _, _, boundary, [] => boundary
  | _, _, boundary, [_] => boundary
  | index, granule48k, boundary, packet :: next :: rest =>
      let granule48k := granule48k + platform.duration packet
      lastBoundary (index + 1) granule48k
        (boundaryAfter (index + 1) granule48k boundary) (next :: rest)

/-- What the reader makes of the last page. -/
def ending (granuleOffset48k finalGranule48k granule48k : Nat)
    (boundary : Option Nat) (packets : List (List UInt8)) :
    Except String Audio :=
  let offset :=
    if boundary.isSome then granuleOffset48k
    else finalGranule48k - granule48k
  if boundary.any (finalGranule48k < granuleOffset48k + ·) ||
      offset + granule48k < finalGranule48k then
    .error "Ogg/Opus final granule position is invalid"
  else
    .ok
      { packets := packets
        decodedSamples48k := granule48k
        previousPageGranule48k := some finalGranule48k
        granuleOffset48k := some offset
        finalGranule48k := some finalGranule48k
        endTrim48k := some (offset + granule48k - finalGranule48k) }

/-- A page that is not the last confirms the offset. -/
private theorem endPage_inProgress {granuleOffset48k granule48k : Nat}
    {packets : List (List UInt8)} {boundary : Option Nat}
    (fits : granuleOffset48k + granule48k < 2 ^ 64) :
    endPage (inProgress granuleOffset48k packets granule48k boundary)
        (granuleOffset48k + granule48k) false =
      .ok (inProgress granuleOffset48k packets granule48k
        (some granule48k)) := by
  have remains : checkedSub (granuleOffset48k + granule48k) granule48k
      "Ogg/Opus initial granule position is invalid" =
        .ok granuleOffset48k := by
    rw [checkedSub, if_pos (Nat.le_add_left _ _), Nat.add_sub_cancel]
  have expected := checkedAdd_eq "Ogg/Opus granule position overflows" fits
  rw [endPage, if_neg Bool.false_ne_true]
  cases boundary with
  | none =>
      simp only [inProgress, Option.map_none, remains, expected, bind,
        Except.bind, ne_eq, not_true_eq_false, if_false, Option.map_some]
  | some samples =>
      simp only [inProgress, Option.map_some, expected, bind, Except.bind,
        ne_eq, not_true_eq_false, if_false]

/-- The last page. -/
private theorem endPage_ending {granuleOffset48k finalGranule48k
    granule48k : Nat} {packets : List (List UInt8)}
    {boundary : Option Nat} (fits : granuleOffset48k + granule48k < 2 ^ 64)
    (final : finalGranule48k ≤ granuleOffset48k + granule48k) :
    endPage (inProgress granuleOffset48k packets granule48k boundary)
        finalGranule48k true =
      ending granuleOffset48k finalGranule48k granule48k boundary
        packets := by
  rw [endPage, if_pos rfl]
  unfold ending
  cases boundary with
  | none =>
      have expected := @checkedAdd_eq (finalGranule48k - granule48k)
        granule48k "Ogg/Opus granule position overflows" (by omega)
      simp only [inProgress, Option.map_none, Option.getD_none, expected,
        bind, Except.bind, Option.any_none, Option.isSome_none,
        Bool.false_eq_true, if_false]
      rfl
  | some samples =>
      have expected := checkedAdd_eq "Ogg/Opus granule position overflows" fits
      simp only [inProgress, Option.map_some, Option.getD_some, expected,
        bind, Except.bind, Option.any_some, Option.isSome_some, if_true]
      rfl

private theorem ending_append {granuleOffset48k finalGranule48k
    granule48k : Nat} {boundary : Option Nat}
    {packets : List (List UInt8)} {packet : List UInt8} :
    (ending granuleOffset48k finalGranule48k granule48k boundary packets >>=
      fun audio => Except.ok
        { audio with packets := audio.packets ++ [packet] }) =
      ending granuleOffset48k finalGranule48k granule48k boundary
        (packets ++ [packet]) := by
  unfold ending
  generalize (if boundary.isSome then granuleOffset48k
    else finalGranule48k - granule48k) = offset
  dsimp only
  split
  · rfl
  · rfl

/-! ## Accepting the audio -/

theorem samples_cons (packet : List UInt8) (rest : List (List UInt8)) :
    platform.samples (packet :: rest) =
      platform.duration packet + platform.samples rest := by
  rw [samples, List.map_cons, List.sum_cons]
  rfl

section Audio

variable {serial finalGranule48k granuleOffset48k count index
  granule48k : Nat} {before : List (List UInt8)} {packet : List UInt8}
  {boundary : Option Nat}

/-- A packet of the stream is counted, and ends its page if it is to. -/
private theorem acceptWrite_eq {write : Write} (isSerial : write.serial = serial)
    (valid : platform.Valid write.data) (room : before.length < maxPacketCount)
    (fits : granule48k + platform.duration write.data < 2 ^ 64) :
    platform.acceptWrite serial
        (inProgress granuleOffset48k before granule48k boundary) write =
      (if write.endInfo = .normalPacket then
        .ok (inProgress granuleOffset48k before
          (granule48k + platform.duration write.data) boundary)
      else
        endPage (inProgress granuleOffset48k before
            (granule48k + platform.duration write.data) boundary)
          write.granule (decide (write.endInfo = .endStream))) >>=
        fun audio => .ok
          { audio with packets := audio.packets ++ [write.data] } := by
  have added := checkedAdd_eq "Voice message duration overflows" fits
  have notFull : ¬ maxPacketCount ≤ before.length :=
    Nat.not_le.mpr room
  rw [Valid] at valid
  unfold acceptWrite acceptPacket
  cases isEnd : write.endInfo <;>
    simp [isSerial, inProgress, notFull, valid, added, bind, Except.bind]

/-- A packet that is not the last. -/
theorem acceptWrite_inner (valid : platform.Valid packet)
    (room : before.length < maxPacketCount)
    (fits : granuleOffset48k + (granule48k + platform.duration packet) <
      2 ^ 64) (goesOn : index + 1 ≠ count) :
    platform.acceptWrite serial
        (inProgress granuleOffset48k before granule48k boundary)
        (audioWrite serial finalGranule48k granuleOffset48k count index
          (granule48k + platform.duration packet) packet) =
      .ok (inProgress granuleOffset48k (before ++ [packet])
        (granule48k + platform.duration packet)
        (boundaryAfter (index + 1) (granule48k + platform.duration packet)
          boundary)) := by
  have accepted := @acceptWrite_eq platform serial granuleOffset48k
    granule48k before boundary
    (audioWrite serial finalGranule48k granuleOffset48k count index
      (granule48k + platform.duration packet) packet) rfl valid room
    (Nat.lt_of_le_of_lt (Nat.le_add_left _ _) fits)
  rw [accepted, boundaryAfter]
  by_cases isEnd : (index + 1) % packetsPerPage = 0
  · simp only [audioWrite, if_neg goesOn, if_pos isEnd]
    have goesOn : decide (EndInfo.endPage = EndInfo.endStream) = false :=
      rfl
    rw [if_neg EndInfo.noConfusion, goesOn, endPage_inProgress fits]
    rfl
  · simp only [audioWrite, if_neg goesOn, if_neg isEnd]
    rfl

/-- The last packet. -/
theorem acceptWrite_last (valid : platform.Valid packet) (room : before.length < maxPacketCount)
    (fits : granuleOffset48k + (granule48k + platform.duration packet) < 2 ^ 64)
    (final : finalGranule48k ≤ granuleOffset48k + (granule48k + platform.duration packet))
    (isLast : index + 1 = count) :
    platform.acceptWrite serial
        (inProgress granuleOffset48k before granule48k boundary)
        (audioWrite serial finalGranule48k granuleOffset48k count index
          (granule48k + platform.duration packet) packet) =
      ending granuleOffset48k finalGranule48k
        (granule48k + platform.duration packet) boundary
        (before ++ [packet]) := by
  have accepted := @acceptWrite_eq platform serial granuleOffset48k
    granule48k before boundary
    (audioWrite serial finalGranule48k granuleOffset48k count index
      (granule48k + platform.duration packet) packet) rfl valid room
    (Nat.lt_of_le_of_lt (Nat.le_add_left _ _) fits)
  rw [accepted]
  simp only [audioWrite, if_pos isLast]
  rw [if_neg EndInfo.noConfusion, decide_true, endPage_ending fits final]
  exact ending_append

end Audio

/-- Accepting the audio to its end. -/
theorem foldlM_audioWrites {serial finalGranule48k granuleOffset48k count
    index granule48k : Nat} {before packets : List (List UInt8)}
    {boundary : Option Nat} (some_packet : packets ≠ [])
    (valid : ∀ packet ∈ packets, platform.Valid packet)
    (room : before.length + packets.length ≤ maxPacketCount)
    (fits : granuleOffset48k + (granule48k + platform.samples packets) < 2 ^ 64)
    (final : finalGranule48k ≤ granuleOffset48k + (granule48k + platform.samples packets))
    (counted : index + packets.length = count) :
    (audioWrites serial finalGranule48k granuleOffset48k count index
        granule48k (platform.timed packets)).foldlM
        (platform.acceptWrite serial)
        (inProgress granuleOffset48k before granule48k boundary) =
      ending granuleOffset48k finalGranule48k
        (granule48k + platform.samples packets)
        (platform.lastBoundary index granule48k boundary packets)
        (before ++ packets) := by
  induction packets generalizing index granule48k before boundary with
  | nil => exact (some_packet rfl).elim
  | cons packet rest ih =>
      have isValid := valid packet List.mem_cons_self
      rw [samples_cons, ← Nat.add_assoc granule48k] at fits final ⊢
      rw [List.length_cons] at room counted
      cases rest with
      | nil =>
          have now := @acceptWrite_last platform serial finalGranule48k
            granuleOffset48k count index granule48k before packet boundary
            isValid (by omega) fits final counted
          have nothingMore : platform.samples [] = 0 :=
            rfl
          rw [timed, List.map_singleton, audioWrites, audioWrites,
            List.foldlM_cons, now, lastBoundary, nothingMore, Nat.add_zero]
          simp only [List.foldlM_nil, bind_pure]
      | cons next others =>
          have goesOn : index + 1 ≠ count := by
            rw [List.length_cons] at counted
            omega
          have now := @acceptWrite_inner platform serial finalGranule48k
            granuleOffset48k count index granule48k before packet boundary
            isValid (by omega) (by omega) goesOn
          have later := @ih (index + 1)
            (granule48k + platform.duration packet) (before ++ [packet])
            (boundaryAfter (index + 1) (granule48k + platform.duration packet) boundary)
            (List.cons_ne_nil _ _)
            (fun other member =>
              valid other (List.mem_cons_of_mem packet member))
            (by
              rw [List.length_append, List.length_singleton]
              omega)
            fits final (by omega)
          rw [List.append_assoc, List.singleton_append] at later
          rw [lastBoundary, ← later, timed, List.map_cons, audioWrites, List.foldlM_cons, now]
          rfl

/-! ## The last page that ends before the last packet -/

theorem lastBoundary_eq {packets : List (List UInt8)}
    (some_packet : packets ≠ []) (index granule48k : Nat) (boundary : Option Nat) :
    platform.lastBoundary index granule48k boundary packets =
      let ended := packetsPerPage * ((index + packets.length - 1) / packetsPerPage)
      if ended ≤ index then boundary
      else some (granule48k +
        platform.samples (packets.take (ended - index))) := by
  induction packets generalizing index granule48k boundary with
  | nil => exact (some_packet rfl).elim
  | cons packet rest ih =>
      have width : packetsPerPage = 16 :=
        rfl
      cases rest with
      | nil =>
          have before : packetsPerPage * ((index + 1 - 1) /
              packetsPerPage) ≤ index := by
            rw [Nat.add_sub_cancel]
            exact Nat.mul_div_le _ _
          rw [lastBoundary, List.length_singleton]
          exact (if_pos before).symm
      | cons next others =>
          rw [lastBoundary, ih (List.cons_ne_nil _ _)]
          have sameLength : index + 1 + (next :: others).length - 1 =
              index + (packet :: next :: others).length - 1 := by
            simp only [List.length_cons]
            omega
          rw [sameLength]
          have atLeast : (index + 1) / 16 ≤
              (index + (packet :: next :: others).length - 1) / 16 := by
            simp only [List.length_cons]
            omega
          generalize (index + (packet :: next :: others).length - 1) = final at atLeast ⊢
          simp only [width, boundaryAfter]
          by_cases notYet : 16 * (final / 16) ≤ index
          · have goesOn : ¬ (index + 1) % 16 = 0 := by
              omega
            rw [if_pos notYet, if_pos (Nat.le_succ_of_le notYet), if_neg goesOn]
          · rw [if_neg notYet]
            obtain ⟨further, isFurther⟩ := Nat.exists_eq_add_of_lt (Nat.not_le.mp notYet)
            have taken : 16 * (final / 16) - index = further + 1 := by
              omega
            rw [taken, List.take_succ_cons, samples_cons, ← Nat.add_assoc]
            by_cases now : 16 * (final / 16) ≤ index + 1
            · have atEnd : (index + 1) % 16 = 0 := by
                omega
              have nothing : further = 0 := by
                omega
              rw [if_pos now, if_pos atEnd, nothing]
              rfl
            · have remaining : 16 * (final / 16) - (index + 1) =
                  further := by
                omega
              rw [if_neg now, remaining]

/-- The packets of the last page. -/
def lastPage (packets : List (List UInt8)) : List (List UInt8) :=
  packets.drop (packetsPerPage * ((packets.length - 1) / packetsPerPage))

theorem samples_append (first second : List (List UInt8)) :
    platform.samples (first ++ second) =
      platform.samples first + platform.samples second := by
  rw [samples, List.map_append, List.sum_append]
  rfl

/-- A stream of a single page has no page that ends before. -/
theorem lastBoundary_single {packets : List (List UInt8)} (some_packet : packets ≠ [])
    (single : packets.length ≤ packetsPerPage) :
    platform.lastBoundary 0 0 none packets = none := by
  have width : packetsPerPage = 16 :=
    rfl
  rw [platform.lastBoundary_eq some_packet]
  dsimp only
  rw [width] at single ⊢
  rw [if_pos (by omega)]

/-- Otherwise one ends before the packets of the last page. -/
theorem lastBoundary_several {packets : List (List UInt8)}
    (several : packetsPerPage < packets.length) :
    ∃ before, platform.lastBoundary 0 0 none packets = some before ∧
      before + platform.samples (lastPage packets) =
        platform.samples packets := by
  have width : packetsPerPage = 16 :=
    rfl
  have some_packet : packets ≠ [] := by
    intro none
    rw [none] at several
    exact Nat.not_lt_zero _ several
  refine ⟨platform.samples (packets.take (packetsPerPage *
    ((packets.length - 1) / packetsPerPage))), ?_, ?_⟩
  · rw [platform.lastBoundary_eq some_packet]
    dsimp only
    rw [Nat.zero_add, Nat.zero_add, Nat.sub_zero]
    rw [width] at several ⊢
    rw [if_neg (by omega)]
  · rw [← samples_append, lastPage, List.take_append_drop]

/-- The last page that ends only moves on. -/
private theorem le_lastBoundary {packets : List (List UInt8)}
    (some_packet : packets ≠ []) {index granule48k before : Nat}
    (behind : before ≤ granule48k) :
    ∃ last, platform.lastBoundary index granule48k (some before) packets =
      some last ∧ before ≤ last := by
  rw [platform.lastBoundary_eq some_packet]
  dsimp only
  split
  · exact ⟨before, rfl, Nat.le_refl before⟩
  · exact ⟨_, rfl, Nat.le_add_right_of_le behind⟩

/-! ## Granule positions of the pages -/

/-- A page of audio has the final granule position or one that is not past the
last page that ends before the last packet. -/
theorem granule_pagesFrom {serial finalGranule48k granuleOffset48k count
    index granule48k sequence : Nat} {held packets : List (List UInt8)}
    {boundary : Option Nat} {page : Page} (counted : index + packets.length = count)
    (member : page ∈ pagesFrom false sequence held
      (audioWrites serial finalGranule48k granuleOffset48k count index
        granule48k (platform.timed packets))) :
    page.granule = finalGranule48k ∨
      ∃ samples last, page.granule = granuleOffset48k + samples ∧
        samples ≤ last ∧
        platform.lastBoundary index granule48k boundary packets =
          some last := by
  induction packets generalizing index granule48k sequence held boundary with
  | nil => exact (List.not_mem_nil member).elim
  | cons packet rest ih =>
      rw [List.length_cons] at counted
      rw [timed, List.map_cons, audioWrites, pagesFrom] at member
      cases rest with
      | nil =>
          have isLast : index + 1 = count :=
            counted
          simp only [audioWrite, if_pos isLast, List.map_nil, audioWrites,
            pagesFrom, List.mem_singleton] at member
          rw [member]
          exact Or.inl rfl
      | cons next others =>
          have goesOn : index + 1 ≠ count := by
            rw [List.length_cons] at counted
            omega
          have later : index + 1 + (next :: others).length = count := by
            omega
          rw [lastBoundary]
          by_cases isEnd : (index + 1) % packetsPerPage = 0
          · simp only [audioWrite, if_neg goesOn, if_pos isEnd] at member
            rcases List.mem_cons.mp member with isFirst | further
            · obtain ⟨last, isBoundary, behind⟩ :=
                @le_lastBoundary platform _
                  (List.cons_ne_nil next others) (index + 1) _ _
                  (Nat.le_refl (granule48k + platform.duration packet))
              refine Or.inr ⟨_, last, ?_, behind, ?_⟩
              · rw [isFirst]
                rfl
              · rw [boundaryAfter, if_pos isEnd]
                exact isBoundary
            · exact ih later further
          · simp only [audioWrite, if_neg goesOn, if_neg isEnd] at member
            exact ih later member

/-- The last page has the final granule position. -/
theorem final_mem_pagesFrom {serial finalGranule48k granuleOffset48k count
    index granule48k sequence : Nat} {held packets : List (List UInt8)}
    (some_packet : packets ≠ []) (counted : index + packets.length = count) :
    ∃ page ∈ pagesFrom false sequence held
        (audioWrites serial finalGranule48k granuleOffset48k count index
          granule48k (platform.timed packets)),
      page.granule = finalGranule48k := by
  induction packets generalizing index granule48k sequence held with
  | nil => exact (some_packet rfl).elim
  | cons packet rest ih =>
      rw [List.length_cons] at counted
      rw [timed, List.map_cons, audioWrites, pagesFrom]
      cases rest with
      | nil =>
          have isLast : index + 1 = count :=
            counted
          simp only [audioWrite, if_pos isLast]
          exact ⟨_, List.mem_cons_self, rfl⟩
      | cons next others =>
          have goesOn : index + 1 ≠ count := by
            rw [List.length_cons] at counted
            omega
          have later : index + 1 + (next :: others).length = count := by
            omega
          by_cases isEnd : (index + 1) % packetsPerPage = 0
          · obtain ⟨page, member, isFinal⟩ :=
              @ih (index + 1)
                (granule48k + platform.duration packet) (sequence + 1) []
                (List.cons_ne_nil next others) later
            simp only [audioWrite, if_neg goesOn, if_pos isEnd]
            exact ⟨page, List.mem_cons_of_mem _ member, isFinal⟩
          · obtain ⟨page, member, isFinal⟩ :=
              @ih (index + 1)
                (granule48k + platform.duration packet) sequence
                (held ++ [packet]) (List.cons_ne_nil next others) later
            simp only [audioWrite, if_neg goesOn, if_neg isEnd]
            exact ⟨page, member, isFinal⟩

/-! ## The metadata -/

theorem concludeAudio_eq {header : OpusHead} {audio : Audio}
    {finalGranule48k : Nat} (final : audio.finalGranule48k =
      some finalGranule48k) (some_packet : audio.packets ≠ [])
    (bounded : audio.decodedSamples48k ≤ maximumSamples) :
    concludeAudio header audio =
      let skip := header.preSkip48k.toNat
      let trim := audio.endTrim48k.getD 0
      if skip + trim < audio.decodedSamples48k then
        .ok
          { metadata :=
              { channels := header.channels
                inputSampleRateHz := header.inputSampleRateHz
                preSkip48k := header.preSkip48k
                outputGainQ8 := header.outputGainQ8
                granuleOffset48k := audio.granuleOffset48k.getD 0
                endTrim48k := trim
                finalGranule48k := finalGranule48k
                playableSamples48k := audio.decodedSamples48k - skip - trim
                durationMs :=
                  (min ((audio.decodedSamples48k - skip - trim) * 1000)
                      (2 ^ 64 - 1) + (opusClockHz - 1)) / opusClockHz }
            packets := audio.packets }
      else .error "Ogg/Opus trimming removes all audio" := by
  have nonempty : audio.packets.isEmpty = false :=
    List.isEmpty_eq_false_iff.mpr some_packet
  have most : maximumSamples = 14400000 :=
    rfl
  have clock : opusClockHz = 48000 :=
    rfl
  rw [most] at bounded
  unfold concludeAudio checkedSub
  simp only [final, nonempty, most, clock, Bool.false_eq_true, if_false]
  by_cases skips : header.preSkip48k.toNat ≤ audio.decodedSamples48k
  · simp only [if_pos skips, bind, Except.bind]
    by_cases trims : audio.endTrim48k.getD 0 ≤ audio.decodedSamples48k - header.preSkip48k.toNat
    · simp only [if_pos trims]
      by_cases nothing : audio.decodedSamples48k -
          header.preSkip48k.toNat - audio.endTrim48k.getD 0 = 0
      · rw [if_pos nothing, if_neg (by omega)]
      · rw [if_neg nothing, if_neg (by omega), if_neg (by omega),
          if_pos (by omega)]
    · rw [if_neg trims, if_neg (by omega)]
  · simp only [if_neg skips, bind, Except.bind]
    rw [if_neg (by omega)]

end VoicePlatform

end Ratspeak
