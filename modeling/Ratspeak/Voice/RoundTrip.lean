import Ratspeak.Voice.Recovery

/-!
# When a voice message is read as it was written

Whatever packets and timing are wrapped, the reader gives the same packets and
the same timing if and only if audio remains after both trims, the offset can
be told from the pages, and the last page does not end where the number means
that no packet is completed.
-/

namespace Ratspeak

open Library Ogg

namespace VoicePlatform

variable (platform : VoicePlatform)

section Mux

variable {packets : List (List UInt8)} {streamSerial : UInt32}
  {preSkip48k : UInt16} {endTrim48k granuleOffset48k : UInt64}

/-- What the reader knows of the audio after the last packet. -/
def recovered (packets : List (List UInt8))
    (endTrim48k granuleOffset48k : UInt64) : Except String Audio :=
  ending granuleOffset48k.toNat
    (platform.finalGranule packets endTrim48k granuleOffset48k)
    (platform.samples packets) (platform.lastBoundary 0 0 none packets)
    packets

/-- Reading the pages of the audio. -/
private theorem audio_recovered (accepted : platform.Accepted packets preSkip48k endTrim48k
      granuleOffset48k) (streamSerial : UInt32) :
    (packetsOf (pagesFrom false 2 [] (platform.muxAudio packets
        streamSerial endTrim48k granuleOffset48k))).foldlM
        (platform.acceptPacket streamSerial.toNat) {} =
      platform.recovered packets endTrim48k granuleOffset48k := by
  have some_packet : platform.timed packets ≠ [] := by
    rw [timed]
    exact mt List.map_eq_nil_iff.mp accepted.some_packet
  have few := accepted.few
  have granule := accepted.granule
  have pages := @foldlM_pagesFrom platform streamSerial.toNat 2 {} []
    (platform.muxAudio packets streamSerial endTrim48k granuleOffset48k)
    (fun other member => (List.not_mem_nil member).elim)
    serial_audioWrites
    (endsOnce_audioWrites _ _ _ _ some_packet (by rw [Nat.zero_add, length_timed]))
  have audio := @foldlM_audioWrites platform streamSerial.toNat
    (platform.finalGranule packets endTrim48k granuleOffset48k)
    granuleOffset48k.toNat packets.length 0 0 [] packets none
    accepted.some_packet accepted.valid
    (by rw [List.length_nil, Nat.zero_add]; exact few)
    (by rw [Nat.zero_add]; exact granule)
    (by rw [Nat.zero_add]; exact Nat.sub_le _ _) (Nat.zero_add _)
  rw [Nat.zero_add, List.nil_append] at audio
  exact pages.trans audio

/-- Taking apart what was written. -/
theorem parse_mux (inverse : platform.ogg.Inverse) (roomy : packetsPerPage *
      (platform.opusEncodedPacketMaxBytes / 255 + 1) ≤ 255)
    (accepted : platform.Accepted packets preSkip48k endTrim48k
      granuleOffset48k) (outputGainQ8 : Int16)
    (size : (encode (pagesOf (platform.muxWrites packets streamSerial
      preSkip48k endTrim48k granuleOffset48k outputGainQ8))).length ≤ voiceMemoMaxAudioBytes) :
    platform.parseOggOpus (encode (pagesOf (platform.muxWrites packets
        streamSerial preSkip48k endTrim48k granuleOffset48k
        outputGainQ8))) =
      if unfinished (pagesOf (platform.muxWrites packets streamSerial
          preSkip48k endTrim48k granuleOffset48k outputGainQ8)) then
        .error "Voice message Ogg completed-packet granule is invalid"
      else
        platform.recovered packets endTrim48k granuleOffset48k >>=
          concludeAudio
            { channels := outputChannels
              inputSampleRateHz := outputInputRateHz
              preSkip48k := preSkip48k
              outputGainQ8 := outputGainQ8 } := by
  have complete := accepted.complete platform streamSerial outputGainQ8 roomy
  have some_packet : 0 < packets.length :=
    List.length_pos_iff.mpr accepted.some_packet
  have few := accepted.few
  have length := @length_muxWrites platform packets streamSerial
    preSkip48k endTrim48k granuleOffset48k outputGainQ8
  have most : maxPageCount = maxPacketCount + 2 :=
    rfl
  have validated := platform.validatePhysicalStream_pagesOf complete
    (accepted.within platform outputGainQ8) (by omega) (by omega) size
  unfold parseOggOpus
  rw [validated]
  split
  · rfl
  obtain ⟨second, readHead, third, readTags, reads⟩ :=
    inverse.read _ _ complete
  have enough := length_packetsOf_pagesFrom_le false 2 []
    (platform.muxAudio packets streamSerial endTrim48k granuleOffset48k)
  rw [muxWrites, List.length_cons, List.length_cons] at length
  have audio : platform.readAudio streamSerial.toNat maxPacketCount {}
      third = platform.recovered packets endTrim48k granuleOffset48k :=
    (platform.readAudio_eq reads
      (Nat.le_trans enough (by rw [List.length_nil]; omega))).trans
      (platform.audio_recovered accepted streamSerial)
  have head := inverse.expected _ _ _ readHead
  have tags := inverse.expected _ _ _ readTags
  simp only [bind, Except.bind, mapFailure, head, tags, pageWith,
    headerWrite, parseOpusHead_opusHead, validateOpusTags_opusTags, audio]
  simp

/-! ## What is recovered -/

/-- A stream of a single page. -/
private theorem recovered_single (accepted : platform.Accepted packets preSkip48k endTrim48k
      granuleOffset48k) (single : packets.length ≤ packetsPerPage) :
    ∃ audio, platform.recovered packets endTrim48k granuleOffset48k =
        .ok audio ∧
      audio.packets = packets ∧
      audio.decodedSamples48k = platform.samples packets ∧
      audio.granuleOffset48k = some (granuleOffset48k.toNat - endTrim48k.toNat) ∧
      audio.endTrim48k = some (endTrim48k.toNat - granuleOffset48k.toNat) ∧
      audio.finalGranule48k = some
        (platform.finalGranule packets endTrim48k granuleOffset48k) := by
  have trim := accepted.trim
  unfold recovered
  rw [platform.lastBoundary_single accepted.some_packet single, ending, finalGranule]
  rw [Option.isSome_none, Option.any_none, if_neg Bool.false_ne_true,
    Bool.false_or, if_neg (by rw [decide_eq_true_eq]; omega)]
  refine ⟨_, rfl, rfl, rfl, ?_, ?_, rfl⟩
  · exact congrArg some (by omega)
  · exact congrArg some (by omega)

/-- A stream of several pages. -/
private theorem recovered_several (accepted : platform.Accepted packets preSkip48k endTrim48k
      granuleOffset48k) (several : packetsPerPage < packets.length) :
    if endTrim48k.toNat ≤ platform.samples (lastPage packets) then
      ∃ audio, platform.recovered packets endTrim48k granuleOffset48k =
          .ok audio ∧
        audio.packets = packets ∧
        audio.decodedSamples48k = platform.samples packets ∧
        audio.granuleOffset48k = some granuleOffset48k.toNat ∧
        audio.endTrim48k = some endTrim48k.toNat ∧
        audio.finalGranule48k = some (platform.finalGranule packets endTrim48k granuleOffset48k)
    else
      platform.recovered packets endTrim48k granuleOffset48k =
        .error "Ogg/Opus final granule position is invalid" := by
  have trim := accepted.trim
  obtain ⟨before, isBoundary, together⟩ :=
    platform.lastBoundary_several several
  unfold recovered
  rw [isBoundary, ending, finalGranule]
  rw [Option.isSome_some, Option.any_some, if_pos rfl]
  by_cases fits : endTrim48k.toNat ≤ platform.samples (lastPage packets)
  · rw [if_pos fits, if_neg (by
      rw [Bool.or_eq_true, decide_eq_true_eq, decide_eq_true_eq]
      omega)]
    refine ⟨_, rfl, rfl, rfl, rfl, ?_, rfl⟩
    exact congrArg some (by omega)
  · rw [if_neg fits, if_pos (by
      rw [Bool.or_eq_true, decide_eq_true_eq, decide_eq_true_eq]
      omega)]

/-- The offset and the trim can be told from the pages. -/
def Placed (packets : List (List UInt8)) (endTrim48k granuleOffset48k : UInt64) : Prop :=
  if packets.length ≤ packetsPerPage then
    granuleOffset48k = 0 ∨ endTrim48k = 0
  else endTrim48k.toNat ≤ platform.samples (lastPage packets)

/-- Audio remains, it is placed, and the last page ends at a proper granule
position. -/
structure Recoverable (packets : List (List UInt8)) (preSkip48k : UInt16)
    (endTrim48k granuleOffset48k : UInt64) : Prop where
  playable : preSkip48k.toNat + endTrim48k.toNat < platform.samples packets
  placed : platform.Placed packets endTrim48k granuleOffset48k
  finished : platform.finalGranule packets endTrim48k granuleOffset48k ≠ 2 ^ 64 - 1

/-- The bytes are read as these packets and this timing. -/
def RoundTrips (packets : List (List UInt8)) (preSkip48k : UInt16)
    (endTrim48k granuleOffset48k : UInt64) (outputGainQ8 : Int16) (data : List UInt8) : Prop :=
  ∃ parsed, platform.parseOggOpus data = .ok parsed ∧
    parsed.packets = packets ∧
    parsed.metadata.preSkip48k = preSkip48k ∧
    parsed.metadata.outputGainQ8 = outputGainQ8 ∧
    parsed.metadata.granuleOffset48k = granuleOffset48k.toNat ∧
    parsed.metadata.endTrim48k = endTrim48k.toNat ∧
    parsed.metadata.playableSamples48k + preSkip48k.toNat +
      endTrim48k.toNat = platform.samples packets

/-! ## Pages that say that no packet is completed -/

/-- The last page says so if its granule position is that number. -/
theorem unfinished_of_final (accepted : platform.Accepted packets preSkip48k endTrim48k
      granuleOffset48k) (outputGainQ8 : Int16)
    (reserved : platform.finalGranule packets endTrim48k granuleOffset48k = 2 ^ 64 - 1) :
    unfinished (pagesOf (platform.muxWrites packets streamSerial
      preSkip48k endTrim48k granuleOffset48k outputGainQ8)) = true := by
  obtain ⟨page, member, isFinal⟩ := @final_mem_pagesFrom platform
    streamSerial.toNat
    (platform.finalGranule packets endTrim48k granuleOffset48k)
    granuleOffset48k.toNat packets.length 0 0 2 [] packets
    accepted.some_packet (Nat.zero_add _)
  refine List.any_eq_true.mpr ⟨page, ?_, ?_⟩
  · exact List.mem_cons_of_mem _ (List.mem_cons_of_mem _ member)
  · rw [decide_eq_true_eq, isFinal, reserved]

/-- Otherwise none does, if the trim is placed. -/
theorem finished_of_placed (accepted : platform.Accepted packets preSkip48k endTrim48k
      granuleOffset48k) (outputGainQ8 : Int16)
    (placed : platform.Placed packets endTrim48k granuleOffset48k)
    (proper : platform.finalGranule packets endTrim48k granuleOffset48k ≠ 2 ^ 64 - 1) :
    unfinished (pagesOf (platform.muxWrites packets streamSerial
      preSkip48k endTrim48k granuleOffset48k outputGainQ8)) = false := by
  have granule := accepted.granule
  rw [unfinished, List.any_eq_false]
  intro page member
  rw [decide_eq_true_eq]
  intro reserved
  rw [pagesOf_muxWrites] at member
  rcases List.mem_cons.mp member with isHead | member
  · rw [isHead] at reserved
    simp only [pageWith, headerWrite] at reserved
    omega
  rcases List.mem_cons.mp member with isTags | member
  · rw [isTags] at reserved
    simp only [pageWith, headerWrite] at reserved
    omega
  have counted : 0 + packets.length = packets.length :=
    Nat.zero_add _
  rcases @granule_pagesFrom platform streamSerial.toNat _ _ _ 0 0 2 []
      packets none page counted member with isFinal | isInner
  · exact proper (isFinal.symm.trans reserved)
  · obtain ⟨samples, last, isGranule, behind, isBoundary⟩ := isInner
    rw [Placed] at placed
    by_cases single : packets.length ≤ packetsPerPage
    · rw [platform.lastBoundary_single accepted.some_packet single]
        at isBoundary
      cases isBoundary
    · rw [if_neg single] at placed
      obtain ⟨before, isBefore, together⟩ :=
        platform.lastBoundary_several (Nat.not_le.mp single)
      rw [isBefore] at isBoundary
      cases isBoundary
      -- all that follows the page is empty, and so is the trim
      refine proper ?_
      rw [finalGranule]
      omega

/-! ## The equivalence -/

/-- A single page tells offset and trim only if one of them is zero. -/
private theorem placed_single (single : packets.length ≤ packetsPerPage) :
    platform.Placed packets endTrim48k granuleOffset48k ↔
      granuleOffset48k.toNat - endTrim48k.toNat = granuleOffset48k.toNat ∧
        endTrim48k.toNat - granuleOffset48k.toNat =
          endTrim48k.toNat := by
  rw [Placed, if_pos single, ← UInt64.toNat_inj, ← UInt64.toNat_inj,
    show UInt64.toNat 0 = 0 from rfl]
  omega

/-- What is recovered has the packets, and the timing if it is placed. -/
private theorem recovered_ok (accepted : platform.Accepted packets preSkip48k endTrim48k
      granuleOffset48k) {audio : Audio}
    (isAudio : platform.recovered packets endTrim48k granuleOffset48k = .ok audio) :
    audio.packets = packets ∧
      audio.decodedSamples48k = platform.samples packets ∧
      audio.finalGranule48k = some (platform.finalGranule packets endTrim48k granuleOffset48k) ∧
      (platform.Placed packets endTrim48k granuleOffset48k ↔
        audio.granuleOffset48k.getD 0 = granuleOffset48k.toNat ∧
          audio.endTrim48k.getD 0 = endTrim48k.toNat) := by
  by_cases single : packets.length ≤ packetsPerPage
  · obtain ⟨found, isFound, isPackets, decoded, offset, trim, final⟩ :=
      platform.recovered_single accepted single
    rw [isAudio] at isFound
    cases isFound
    refine ⟨isPackets, decoded, final, ?_⟩
    rw [platform.placed_single single, offset, trim]
    rfl
  · have several := platform.recovered_several accepted
      (Nat.not_le.mp single)
    by_cases fits : endTrim48k.toNat ≤ platform.samples (lastPage packets)
    · rw [if_pos fits] at several
      obtain ⟨found, isFound, isPackets, decoded, offset, trim, final⟩ :=
        several
      rw [isAudio] at isFound
      cases isFound
      refine ⟨isPackets, decoded, final, ?_⟩
      rw [Placed, if_neg single, offset, trim]
      exact ⟨fun _ => ⟨rfl, rfl⟩, fun _ => fits⟩
    · rw [if_neg fits, isAudio] at several
      cases several

/-- What is placed is recovered. -/
private theorem recovered_of_placed
    (accepted : platform.Accepted packets preSkip48k endTrim48k granuleOffset48k)
    (placed : platform.Placed packets endTrim48k granuleOffset48k) :
    ∃ audio, platform.recovered packets endTrim48k granuleOffset48k =
      .ok audio := by
  by_cases single : packets.length ≤ packetsPerPage
  · obtain ⟨found, isFound, -⟩ :=
      platform.recovered_single accepted single
    exact ⟨found, isFound⟩
  · have several := platform.recovered_several accepted
      (Nat.not_le.mp single)
    rw [Placed, if_neg single] at placed
    rw [if_pos placed] at several
    obtain ⟨found, isFound, -⟩ := several
    exact ⟨found, isFound⟩

/-- Packets and timing that are accepted are read as they were written if and
only if they are recoverable. -/
theorem mux_parse (inverse : platform.ogg.Inverse) (roomy : packetsPerPage *
      (platform.opusEncodedPacketMaxBytes / 255 + 1) ≤ 255)
    {outputGainQ8 : Int16} {data : List UInt8}
    (muxed : platform.muxOpusPacketsWithTiming packets streamSerial
      preSkip48k endTrim48k granuleOffset48k outputGainQ8 = .ok data) :
    platform.RoundTrips packets preSkip48k endTrim48k granuleOffset48k
        outputGainQ8 data ↔
      platform.Recoverable packets preSkip48k endTrim48k
        granuleOffset48k := by
  obtain ⟨accepted, isData, size⟩ := platform.mux_ok inverse roomy muxed
  rw [isData] at size
  have parses := @parse_mux platform packets streamSerial preSkip48k
    endTrim48k granuleOffset48k inverse roomy accepted outputGainQ8 size
  rw [← isData] at parses
  constructor
  · rintro ⟨parsed, isParsed, -, -, -, isOffset, isTrim, -⟩
    rw [parses] at isParsed
    split at isParsed
    · cases isParsed
    rename_i finished
    rw [except_bind_ok] at isParsed
    obtain ⟨audio, isAudio, concluded⟩ := isParsed
    obtain ⟨isPackets, decoded, final, placed⟩ :=
      platform.recovered_ok accepted isAudio
    rw [concludeAudio_eq final
      (by rw [isPackets]; exact accepted.some_packet)
      (by rw [decoded]; exact accepted.bounded)] at concluded
    dsimp only at concluded
    split at concluded
    · rename_i remains
      cases concluded
      dsimp only at isOffset isTrim
      rw [isTrim, decoded] at remains
      exact
        { playable := remains
          placed := placed.mpr ⟨isOffset, isTrim⟩
          finished := fun reserved => finished
            (platform.unfinished_of_final accepted outputGainQ8 reserved) }
    · cases concluded
  · intro recoverable
    have finished := @finished_of_placed platform packets streamSerial
      preSkip48k endTrim48k granuleOffset48k accepted outputGainQ8
      recoverable.placed recoverable.finished
    obtain ⟨audio, isAudio⟩ := platform.recovered_of_placed accepted recoverable.placed
    obtain ⟨isPackets, decoded, final, placed⟩ :=
      platform.recovered_ok accepted isAudio
    obtain ⟨isOffset, isTrim⟩ := placed.mp recoverable.placed
    have playable := recoverable.playable
    rw [finished, if_neg Bool.false_ne_true, isAudio] at parses
    have concluded := @concludeAudio_eq
      { channels := outputChannels
        inputSampleRateHz := outputInputRateHz
        preSkip48k := preSkip48k
        outputGainQ8 := outputGainQ8 } audio _ final
      (by rw [isPackets]; exact accepted.some_packet)
      (by rw [decoded]; exact accepted.bounded)
    dsimp only at concluded
    rw [isTrim, decoded, if_pos playable] at concluded
    refine ⟨_, parses.trans concluded, isPackets, rfl, rfl, isOffset, rfl, ?_⟩
    dsimp only
    omega

end Mux

end VoicePlatform

/-! ## A reader and a writer that are inverse -/

/-- A writer that keeps what is written, and a reader of pages. -/
def pageCrate : OggCrate where
  Writer := List Write
  Reader := List Packet
  newWriter := []
  writePacket writer write := .ok (writer ++ [write])
  intoInner writer := encode (pagesOf writer)
  newReader data := packetsOf (decode data)
  readPacket
    | [] => .ok (none, [])
    | packet :: rest => .ok (some packet, rest)
  readPacketExpected
    | [] => .error "Expected ogg packet but found end of physical stream"
    | packet :: rest => .ok (packet, rest)

private theorem writeAll_pageCrate (written writes : List Write) :
    pageCrate.writeAll written writes = .ok (written ++ writes) := by
  induction writes generalizing written with
  | nil =>
      rw [List.append_nil]
      rfl
  | cons write rest ih =>
      have together : written ++ [write] ++ rest =
          written ++ write :: rest := by
        rw [List.append_assoc, List.singleton_append]
      exact (ih (written ++ [write])).trans (congrArg Except.ok together)

private theorem readsAll_pageCrate (packets : List Packet) :
    pageCrate.ReadsAll packets packets := by
  induction packets with
  | nil => exact ⟨[], rfl⟩
  | cons packet rest ih => exact ⟨rest, rfl, ih⟩

theorem pageCrate_inverse : pageCrate.Inverse where
  written _ writes _ := ⟨writes, writeAll_pageCrate [] writes, rfl⟩
  read serial writes complete := by
    have reads := readsAll_pageCrate (packetsOf (decode (encode (pagesOf writes))))
    have decoded := decode_encode complete.fits
    exact Eq.subst (motive := fun pages => pageCrate.ReadsAll
      (packetsOf (decode (encode (pagesOf writes)))) (packetsOf pages))
      decoded reads
  expected reader packet after isRead := by
    cases reader with
    | nil => cases isRead
    | cons first rest =>
        cases isRead
        rfl

/-- One kind of packet, of one frame of 20 milliseconds. -/
def pagePlatform : VoicePlatform where
  ogg := pageCrate
  opusEncodedPacketMaxBytes := 1275
  opusPacketDurationSamples48k
    | 0xF8 :: _ => .ok 960
    | _ => .error "invalid packet"
  maxEfficientSize := 1048575

/-- One packet from a granule position on, trimmed at its end. -/
def onePacket (endTrim48k granuleOffset48k : UInt64) :
    Except String (List UInt8) :=
  pagePlatform.muxOpusPacketsWithTiming [[0xF8, 0]] 7 0 endTrim48k granuleOffset48k 0

/-- Forty packets on three pages. -/
def fortyPackets : List (List UInt8) :=
  (List.range 40).map fun index => [0xF8, UInt8.ofNat index]

/-- Of the packets on three pages the first one is skipped whole, the second
one in part, and the last two are trimmed. -/
theorem mux_parse_threePages :
    ∃ data, pagePlatform.muxOpusPacketsWithTiming fortyPackets 7 1200 1440 1000
        3 = .ok data ∧
      pagePlatform.RoundTrips fortyPackets 1200 1440 1000 3 data := by
  have succeeds : (pagePlatform.muxOpusPacketsWithTiming fortyPackets 7 1200
      1440 1000 3).toOption.isSome = true := by
    decide +kernel
  cases muxed : pagePlatform.muxOpusPacketsWithTiming fortyPackets 7 1200 1440 1000 3 with
  | error failure =>
      rw [muxed] at succeeds
      cases succeeds
  | ok data =>
      refine ⟨data, rfl, (pagePlatform.mux_parse pageCrate_inverse
        (by decide) muxed).mpr ⟨?_, ?_, ?_⟩⟩
      · decide +kernel
      · unfold VoicePlatform.Placed
        decide +kernel
      · decide +kernel

/-- A packet that starts late and is trimmed is read as one that starts
earlier and is not. -/
theorem mux_parse_lateAndTrimmed :
    pagePlatform.ogg.Inverse ∧
      ∃ data, onePacket 480 1000 = .ok data ∧
        ¬ pagePlatform.RoundTrips [[0xF8, 0]] 0 480 1000 0 data := by
  have succeeds : (onePacket 480 1000).toOption.isSome = true := by
    decide +kernel
  have early : (((onePacket 480 1000).bind
      pagePlatform.parseOggOpus).toOption.map fun parsed =>
        parsed.metadata.granuleOffset48k) = some 520 := by
    decide +kernel
  refine ⟨pageCrate_inverse, ?_⟩
  cases muxed : onePacket 480 1000 with
  | error failure =>
      rw [muxed] at succeeds
      cases succeeds
  | ok data =>
      refine ⟨data, rfl, ?_⟩
      rintro ⟨parsed, isParsed, -, -, -, isOffset, -⟩
      rw [muxed] at early
      simp only [Except.bind, isParsed, Except.toOption, Option.map_some, isOffset] at early
      exact absurd early (by decide)

end Ratspeak
