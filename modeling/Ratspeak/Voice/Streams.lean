import Ratspeak.Library.Programs
import Ratspeak.Voice.PhysicalStream

/-!
# The stream of a voice message

What the recorder's packets are written as, and that their pages make a valid
physical stream.  The reader and the writer of pages are taken to be inverse
to each other.
-/

namespace Ratspeak

open Library Ogg

namespace OggCrate

variable (crate : OggCrate)

/-- Write packets in turn. -/
def writeAll : crate.Writer → List Write → Except String crate.Writer
  | writer, [] => .ok writer
  | writer, write :: rest =>
      match crate.writePacket writer write with
      | .error failure => .error failure
      | .ok writer => writeAll writer rest

/-- The reader gives these packets and then says that there are no more. -/
def ReadsAll : crate.Reader → List Packet → Prop
  | reader, [] => ∃ after, crate.readPacket reader = .ok (none, after)
  | reader, packet :: rest => ∃ after,
      crate.readPacket reader = .ok (some packet, after) ∧ ReadsAll after rest

/-- Writer and reader are inverse to each other: whole streams become their
pages, and the packets of these pages are read. -/
structure Inverse : Prop where
  written : ∀ serial writes, Complete serial writes →
    ∃ writer, crate.writeAll crate.newWriter writes = .ok writer ∧
      crate.intoInner writer = encode (pagesOf writes)
  read : ∀ serial writes, Complete serial writes →
    crate.ReadsAll (crate.newReader (encode (pagesOf writes))) (packetsOf (pagesOf writes))
  expected : ∀ reader packet after,
    crate.readPacket reader = .ok (some packet, after) →
      crate.readPacketExpected reader = .ok (packet, after)

end OggCrate

/-! ## Durations -/

namespace VoicePlatform

theorem checkedAdd_ok {first second sum : Nat} {failure : String}
    (added : checkedAdd first second failure = .ok sum) :
    sum = first + second ∧ first + second < 2 ^ 64 := by
  rw [checkedAdd] at added
  split at added
  · rename_i fits
    cases added
    exact ⟨rfl, fits⟩
  · cases added

theorem checkedAdd_eq {first second : Nat} (failure : String) (fits : first + second < 2 ^ 64) :
    checkedAdd first second failure = .ok (first + second) :=
  if_pos fits

theorem ok_of_mapFailure {Value : Type} {text : String}
    {result : Except String Value} {value : Value}
    (succeeded : mapFailure text result = .ok value) :
    result = .ok value := by
  cases result with
  | error failure => cases succeeded
  | ok other => exact succeeded

theorem checkedSub_ok {first second difference : Nat} {failure : String}
    (subtracted : checkedSub first second failure = .ok difference) :
    difference = first - second ∧ second ≤ first := by
  rw [checkedSub] at subtracted
  split at subtracted
  · rename_i fits
    cases subtracted
    exact ⟨rfl, fits⟩
  · cases subtracted

variable (platform : VoicePlatform)

/-- The duration of a packet that is valid. -/
def duration (packet : List UInt8) : Nat :=
  (platform.validateOpusPacket packet).toOption.getD 0

/-- The packet is valid. -/
def Valid (packet : List UInt8) : Prop :=
  platform.validateOpusPacket packet = .ok (platform.duration packet)

theorem valid_of_ok {packet : List UInt8} {duration : Nat}
    (validated : platform.validateOpusPacket packet = .ok duration) :
    duration = platform.duration packet ∧ platform.Valid packet := by
  have same : duration = platform.duration packet := by
    rw [VoicePlatform.duration, validated]
    rfl
  refine ⟨same, ?_⟩
  rw [Valid, ← same]
  exact validated

theorem Valid.length_le {packet : List UInt8} (valid : platform.Valid packet) :
    packet.length ≤ platform.opusEncodedPacketMaxBytes := by
  rw [Valid, validateOpusPacket] at valid
  split at valid
  · cases valid
  · rename_i fits
    rw [Bool.or_eq_true, decide_eq_true_eq] at fits
    omega

theorem measurePackets_ok {packets : List (List UInt8)} {decoded : Nat}
    {durations : List Nat} {total : Nat}
    (measured : platform.measurePackets decoded packets = .ok (durations, total)) :
    durations = packets.map platform.duration ∧
      total = decoded + durations.sum ∧
      ∀ packet ∈ packets, platform.Valid packet := by
  induction packets generalizing decoded durations with
  | nil =>
      cases measured
      exact ⟨rfl, rfl, fun _ member => (List.not_mem_nil member).elim⟩
  | cons packet rest ih =>
      rw [measurePackets, except_bind_ok] at measured
      obtain ⟨duration, validated, measured⟩ := measured
      obtain ⟨isDuration, valid⟩ := platform.valid_of_ok validated
      rw [except_bind_ok] at measured
      obtain ⟨sum, added, measured⟩ := measured
      obtain ⟨isSum, -⟩ := checkedAdd_ok added
      rw [except_bind_ok] at measured
      obtain ⟨⟨others, all⟩, measured, isResult⟩ := measured
      cases isResult
      obtain ⟨isOthers, isAll, allValid⟩ := ih measured
      refine ⟨?_, ?_, ?_⟩
      · rw [isOthers, isDuration, List.map_cons]
      · rw [isAll, isSum, List.sum_cons, Nat.add_assoc]
      · intro other member
        rcases List.mem_cons.mp member with isFirst | later
        · exact isFirst ▸ valid
        · exact allValid other later

/-! ## What is written -/

/-- The packet of an index, as it is written. -/
def audioWrite (serial finalGranule48k granuleOffset48k count index
    granule48k : Nat) (packet : List UInt8) : Write where
  data := packet
  serial := serial
  endInfo :=
    if index + 1 = count then .endStream
    else if (index + 1) % packetsPerPage = 0 then .endPage
    else .normalPacket
  granule :=
    if index + 1 = count then finalGranule48k
    else granuleOffset48k + granule48k

/-- The packets of the given indices, as they are written. -/
def audioWrites (serial finalGranule48k granuleOffset48k count : Nat) :
    Nat → Nat → List (List UInt8 × Nat) → List Write
  | _, _, [] => []
  | index, granule48k, (packet, duration) :: rest =>
      audioWrite serial finalGranule48k granuleOffset48k count index
          (granule48k + duration) packet ::
        audioWrites serial finalGranule48k granuleOffset48k count
          (index + 1) (granule48k + duration) rest

/-- Writing the audio is writing these packets. -/
theorem writeAudio_eq {serial finalGranule48k granuleOffset48k count index
    granule48k : Nat} {pairs : List (List UInt8 × Nat)}
    {writer after : platform.ogg.Writer}
    (fits : granuleOffset48k + granule48k + (pairs.map Prod.snd).sum < 2 ^ 64)
    (written : platform.ogg.writeAll writer
      (audioWrites serial finalGranule48k granuleOffset48k count index
        granule48k pairs) = .ok after) :
    platform.writeAudio serial finalGranule48k granuleOffset48k count index
      granule48k pairs writer = .ok after := by
  induction pairs generalizing index granule48k writer with
  | nil => exact written
  | cons pair rest ih =>
      obtain ⟨packet, duration⟩ := pair
      rw [List.map_cons, List.sum_cons] at fits
      dsimp only at fits
      rw [audioWrites, OggCrate.writeAll] at written
      cases wrote : platform.ogg.writePacket writer
          (audioWrite serial finalGranule48k granuleOffset48k count index
            (granule48k + duration) packet) with
      | error failure =>
          rw [wrote] at written
          cases written
      | ok next =>
          rw [wrote] at written
          have later := ih (by omega) written
          rw [writeAudio]
          dsimp only
          by_cases isLast : index + 1 = count
          · rw [audioWrite, if_pos isLast, if_pos isLast] at wrote
            rw [if_pos isLast, if_pos isLast]
            simp only [bind, Except.bind, wrote, mapFailure]
            exact later
          · rw [audioWrite, if_neg isLast, if_neg isLast] at wrote
            rw [if_neg isLast, if_neg isLast, checkedAdd_eq _ (by omega)]
            simp only [bind, Except.bind, wrote, mapFailure]
            exact later

theorem endsOnce_audioWrites (serial finalGranule48k granuleOffset48k : Nat)
    {count index : Nat} (granule48k : Nat)
    {pairs : List (List UInt8 × Nat)} (some_packet : pairs ≠ [])
    (counted : index + pairs.length = count) :
    EndsOnce (audioWrites serial finalGranule48k granuleOffset48k count
      index granule48k pairs) := by
  induction pairs generalizing index granule48k with
  | nil => exact (some_packet rfl).elim
  | cons pair rest ih =>
      cases rest with
      | nil =>
          have isLast : index + 1 = count :=
            counted
          exact if_pos isLast
      | cons next others =>
          have notLast : index + 1 ≠ count := by
            rw [List.length_cons, List.length_cons] at counted
            omega
          have later := @ih (index + 1)
            (granule48k + pair.2) (List.cons_ne_nil _ _) (by
              rw [← counted]
              simp only [List.length_cons]
              omega)
          refine ⟨?_, later⟩
          rw [audioWrite, if_neg notLast]
          split <;> exact EndInfo.noConfusion

theorem serial_audioWrites {serial finalGranule48k granuleOffset48k count
    index granule48k : Nat} {pairs : List (List UInt8 × Nat)} :
    ∀ write ∈ audioWrites serial finalGranule48k granuleOffset48k count
      index granule48k pairs, write.serial = serial := by
  induction pairs generalizing index granule48k with
  | nil =>
      intro write member
      exact (List.not_mem_nil member).elim
  | cons pair rest ih =>
      intro write member
      rcases List.mem_cons.mp member with isFirst | later
      · rw [isFirst]
        rfl
      · exact ih write later

theorem data_audioWrites (serial finalGranule48k granuleOffset48k count
    index granule48k : Nat) (pairs : List (List UInt8 × Nat)) :
    (audioWrites serial finalGranule48k granuleOffset48k count index
      granule48k pairs).map Write.data = pairs.map Prod.fst := by
  induction pairs generalizing index granule48k with
  | nil => rfl
  | cons pair rest ih => exact congrArg (pair.1 :: ·) (ih _ _)

/-- The bounds within which a page of audio fits. -/
structure AudioFits (serial finalGranule48k granuleOffset48k granule48k
    sequence : Nat) (pairs : List (List UInt8 × Nat)) : Prop where
  serial : serial < 2 ^ 32
  final : finalGranule48k < 2 ^ 64
  granule : granuleOffset48k + granule48k + (pairs.map Prod.snd).sum < 2 ^ 64
  sequence : sequence + pairs.length < 2 ^ 32
  packets : ∀ pair ∈ pairs, pair.1.length ≤ platform.opusEncodedPacketMaxBytes

theorem AudioFits.tail {serial finalGranule48k granuleOffset48k granule48k
    sequence : Nat} {pair : List UInt8 × Nat}
    {rest : List (List UInt8 × Nat)}
    (fits : platform.AudioFits serial finalGranule48k granuleOffset48k
      granule48k sequence (pair :: rest)) {next : Nat}
    (soon : next ≤ sequence + 1) :
    platform.AudioFits serial finalGranule48k granuleOffset48k
      (granule48k + pair.2) next rest where
  serial := fits.serial
  final := fits.final
  granule := by
    have granule := fits.granule
    rw [List.map_cons, List.sum_cons] at granule
    omega
  sequence := by
    have sequence := fits.sequence
    rw [List.length_cons] at sequence
    omega
  packets other member :=
    fits.packets other (List.mem_cons_of_mem pair member)

/-- A page of at most sixteen packets fits. -/
private theorem fits_pageWith {serial finalGranule48k granuleOffset48k
    granule48k sequence count index : Nat} {pair : List UInt8 × Nat}
    {rest : List (List UInt8 × Nat)} (roomy : packetsPerPage *
      (platform.opusEncodedPacketMaxBytes / 255 + 1) ≤ 255)
    (fits : platform.AudioFits serial finalGranule48k granuleOffset48k
      granule48k sequence (pair :: rest))
    {held : List (List UInt8)} (few : held.length < packetsPerPage)
    (short : ∀ packet ∈ held, packet.length ≤ platform.opusEncodedPacketMaxBytes)
    (first last : Bool) :
    (pageWith first sequence held
      (audioWrite serial finalGranule48k granuleOffset48k count index
        (granule48k + pair.2) pair.1) last).Fits where
  lacing := by
    refine Nat.le_trans (Page.length_page_lacing_le ?_ ?_) roomy
    · simp only [pageWith, List.length_append, List.length_singleton]
      omega
    · intro packet member
      rcases List.mem_append.mp member with before | now
      · exact short packet before
      · rw [List.mem_singleton.mp now]
        exact fits.packets pair List.mem_cons_self
  granule := by
    have granule := fits.granule
    rw [List.map_cons, List.sum_cons] at granule
    simp only [pageWith, audioWrite]
    split
    · exact fits.final
    · omega
  serial := fits.serial
  sequence := by
    have sequence := fits.sequence
    simp only [pageWith]
    omega

theorem fits_pagesFrom {serial finalGranule48k granuleOffset48k granule48k
    sequence count index : Nat} {pairs : List (List UInt8 × Nat)}
    (roomy : packetsPerPage * (platform.opusEncodedPacketMaxBytes / 255 + 1) ≤ 255)
    (fits : platform.AudioFits serial finalGranule48k granuleOffset48k
      granule48k sequence pairs) (counted : index + pairs.length = count)
    {held : List (List UInt8)} (few : held.length = index % packetsPerPage)
    (short : ∀ packet ∈ held, packet.length ≤ platform.opusEncodedPacketMaxBytes) :
    ∀ page ∈ pagesFrom false sequence held
      (audioWrites serial finalGranule48k granuleOffset48k count index
        granule48k pairs), page.Fits := by
  induction pairs generalizing index granule48k sequence held with
  | nil =>
      intro page member
      exact (List.not_mem_nil member).elim
  | cons pair rest ih =>
      have room : index % packetsPerPage < packetsPerPage :=
        Nat.mod_lt _ (by decide)
      have pageFits := fun last => @fits_pageWith platform serial
        finalGranule48k granuleOffset48k granule48k sequence count index
        pair rest roomy fits held (few ▸ room) short false last
      rw [List.length_cons] at counted
      have later : index + 1 + rest.length = count := by
        omega
      rw [audioWrites, pagesFrom]
      intro page member
      by_cases isLast : index + 1 = count
      · have nothingMore : rest = [] :=
          List.eq_nil_of_length_eq_zero (by omega)
        subst nothingMore
        simp only [audioWrite, if_pos isLast, audioWrites, pagesFrom,
          List.mem_singleton] at member pageFits
        rw [member]
        exact pageFits true
      · by_cases isEnd : (index + 1) % packetsPerPage = 0
        · simp only [audioWrite, if_neg isLast, if_pos isEnd]
            at member pageFits
          rcases List.mem_cons.mp member with isFirst | others
          · rw [isFirst]
            exact pageFits false
          · exact ih
              (fits.tail platform (Nat.le_refl _)) later
              (by rw [isEnd]; rfl)
              (fun packet member => (List.not_mem_nil member).elim)
              page others
        · simp only [audioWrite, if_neg isLast, if_neg isEnd] at member
          refine ih (fits.tail platform (Nat.le_succ _)) later ?_ ?_ page member
          · have notEnd : (index + 1) % 16 ≠ 0 :=
              isEnd
            have onward : index % 16 + 1 = (index + 1) % 16 := by
              omega
            rw [List.length_append, List.length_singleton, few]
            exact onward
          · intro packet isMember
            rcases List.mem_append.mp isMember with before | now
            · exact short packet before
            · rw [List.mem_singleton.mp now]
              exact fits.packets pair List.mem_cons_self

/-! ## The whole stream -/

/-- The samples of all packets. -/
def samples (packets : List (List UInt8)) : Nat :=
  (packets.map platform.duration).sum

/-- Packets with their durations. -/
def timed (packets : List (List UInt8)) : List (List UInt8 × Nat) :=
  packets.map fun packet => (packet, platform.duration packet)

theorem zip_durations (packets : List (List UInt8)) :
    packets.zip (packets.map platform.duration) =
      platform.timed packets := by
  induction packets with
  | nil => rfl
  | cons packet rest ih => exact congrArg ((packet, platform.duration packet) :: ·) ih

theorem map_snd_timed (packets : List (List UInt8)) :
    (platform.timed packets).map Prod.snd =
      packets.map platform.duration := by
  rw [timed, List.map_map]
  rfl

theorem map_fst_timed (packets : List (List UInt8)) :
    (platform.timed packets).map Prod.fst = packets := by
  rw [timed, List.map_map]
  exact List.map_id packets

theorem length_timed (packets : List (List UInt8)) :
    (platform.timed packets).length = packets.length :=
  List.length_map _

section Mux

variable (packets : List (List UInt8)) (streamSerial : UInt32)
  (preSkip48k : UInt16) (endTrim48k granuleOffset48k : UInt64)
  (outputGainQ8 : Int16)

/-- The granule position of the last page. -/
def finalGranule : Nat :=
  granuleOffset48k.toNat + platform.samples packets - endTrim48k.toNat

/-- A header, on a page of its own. -/
def headerWrite (data : List UInt8) : Write where
  data := data
  serial := streamSerial.toNat
  endInfo := .endPage
  granule := 0

/-- The audio, as it is written. -/
def muxAudio : List Write :=
  audioWrites streamSerial.toNat
    (platform.finalGranule packets endTrim48k granuleOffset48k)
    granuleOffset48k.toNat packets.length 0 0
    (platform.timed packets)

/-- Everything that is written. -/
def muxWrites : List Write :=
  headerWrite streamSerial (opusHead preSkip48k outputGainQ8) ::
    headerWrite streamSerial opusTags ::
      platform.muxAudio packets streamSerial endTrim48k granuleOffset48k

/-- What is asked of packets and timing before anything is written. -/
structure Accepted : Prop where
  some_packet : packets ≠ []
  few : packets.length ≤ maxPacketCount
  valid : ∀ packet ∈ packets, platform.Valid packet
  bounded : platform.samples packets ≤ maximumSamples
  granule : granuleOffset48k.toNat + platform.samples packets < 2 ^ 64
  trim : endTrim48k.toNat ≤ granuleOffset48k.toNat + platform.samples packets
  kept : preSkip48k.toNat < platform.finalGranule packets endTrim48k granuleOffset48k

/-- Packets of bounded length are within their limits after the headers. -/
theorem withinLimits_audio {packets : List (List UInt8)} {completed : Nat}
    (afterHeaders : 2 ≤ completed) (few : completed + packets.length ≤ maxPacketCount + 2)
    (short : ∀ packet ∈ packets, packet.length ≤ platform.opusEncodedPacketMaxBytes) :
    platform.WithinLimits completed packets := by
  induction packets generalizing completed with
  | nil => trivial
  | cons packet rest ih =>
      rw [List.length_cons] at few
      have limit : platform.packetLimit completed =
          platform.opusEncodedPacketMaxBytes := by
        obtain ⟨before, isNext⟩ := Nat.exists_eq_add_of_le afterHeaders
        rw [isNext, Nat.add_comm]
        rfl
      refine ⟨?_, by omega, ?_⟩
      · rw [limit]
        exact short packet List.mem_cons_self
      · exact ih (by omega) (by omega)
          fun other member => short other (List.mem_cons_of_mem packet member)

variable {packets streamSerial preSkip48k endTrim48k granuleOffset48k}

theorem Accepted.final_lt (accepted : platform.Accepted packets preSkip48k endTrim48k
      granuleOffset48k) :
    platform.finalGranule packets endTrim48k granuleOffset48k < 2 ^ 64 :=
  Nat.lt_of_le_of_lt (Nat.sub_le _ _) accepted.granule

theorem Accepted.audioFits (accepted : platform.Accepted packets preSkip48k endTrim48k
      granuleOffset48k) (streamSerial : UInt32) :
    platform.AudioFits streamSerial.toNat
      (platform.finalGranule packets endTrim48k granuleOffset48k)
      granuleOffset48k.toNat 0 2 (platform.timed packets) where
  serial := streamSerial.toNat_lt
  final := accepted.final_lt platform
  granule := by
    rw [map_snd_timed, Nat.add_zero]
    exact accepted.granule
  sequence := by
    have few := accepted.few
    have most : maxPacketCount = 120000 :=
      rfl
    rw [length_timed]
    omega
  packets pair member := by
    obtain ⟨packet, isMember, isPair⟩ := List.mem_map.mp member
    rw [← isPair]
    exact (accepted.valid packet isMember).length_le platform

theorem length_muxWrites (outputGainQ8 : Int16) :
    (platform.muxWrites packets streamSerial preSkip48k endTrim48k
      granuleOffset48k outputGainQ8).length = packets.length + 2 := by
  have data := congrArg List.length (data_audioWrites streamSerial.toNat
    (platform.finalGranule packets endTrim48k granuleOffset48k)
    granuleOffset48k.toNat packets.length 0 0 (platform.timed packets))
  rw [List.length_map, List.length_map, length_timed] at data
  rw [muxWrites, List.length_cons, List.length_cons, muxAudio, data]

theorem data_muxWrites (outputGainQ8 : Int16) :
    (platform.muxWrites packets streamSerial preSkip48k endTrim48k
      granuleOffset48k outputGainQ8).map Write.data =
        opusHead preSkip48k outputGainQ8 :: opusTags :: packets := by
  rw [muxWrites, List.map_cons, List.map_cons, muxAudio, data_audioWrites, map_fst_timed]
  rfl

/-- The first two pages, and those of the audio. -/
theorem pagesOf_muxWrites (outputGainQ8 : Int16) :
    pagesOf (platform.muxWrites packets streamSerial preSkip48k endTrim48k
      granuleOffset48k outputGainQ8) =
      pageWith true 0 [] (headerWrite streamSerial
          (opusHead preSkip48k outputGainQ8)) false ::
        pageWith false 1 [] (headerWrite streamSerial opusTags) false ::
          pagesFrom false 2 [] (platform.muxAudio packets streamSerial
            endTrim48k granuleOffset48k) :=
  rfl

theorem length_opusHead (preSkip48k : UInt16) (outputGainQ8 : Int16) :
    (opusHead preSkip48k outputGainQ8).length = 19 := by
  rfl

theorem Accepted.within (accepted : platform.Accepted packets preSkip48k endTrim48k
      granuleOffset48k) (outputGainQ8 : Int16) :
    platform.WithinLimits 0 ((platform.muxWrites packets streamSerial
      preSkip48k endTrim48k granuleOffset48k outputGainQ8).map
        Write.data) := by
  have few := accepted.few
  have head : (opusHead preSkip48k outputGainQ8).length ≤
      maxOpusHeadBytes := by
    rw [length_opusHead]
    decide
  have tags : opusTags.length ≤ maxTagBytes := by
    decide
  rw [data_muxWrites]
  refine ⟨head, by decide, tags, by decide, ?_⟩
  exact platform.withinLimits_audio (Nat.le_refl 2) (by omega)
    fun packet member => (accepted.valid packet member).length_le platform

private theorem fits_headerWrite {sequence : Nat} {data : List UInt8}
    (early : sequence < 2) (short : data.length ≤ 255) (first : Bool) :
    (pageWith first sequence [] (headerWrite streamSerial data)
      false).Fits where
  lacing := by
    refine Nat.le_trans (@Page.length_page_lacing_le _ 1 255 ?_ ?_) (by decide)
    · exact Nat.le_refl 1
    · intro packet member
      rw [List.mem_singleton.mp member]
      exact short
  granule := by
    simp only [pageWith, headerWrite]
    decide
  serial := streamSerial.toNat_lt
  sequence := by
    simp only [pageWith]
    omega

/-- What is written is a whole stream. -/
theorem Accepted.complete (accepted : platform.Accepted packets preSkip48k endTrim48k
      granuleOffset48k) (streamSerial : UInt32) (outputGainQ8 : Int16)
    (roomy : packetsPerPage * (platform.opusEncodedPacketMaxBytes / 255 + 1) ≤ 255) :
    Complete streamSerial.toNat (platform.muxWrites packets streamSerial
      preSkip48k endTrim48k granuleOffset48k outputGainQ8) where
  serial write member := by
    rcases List.mem_cons.mp member with isHead | member
    · rw [isHead]
      rfl
    · rcases List.mem_cons.mp member with isTags | member
      · rw [isTags]
        rfl
      · exact serial_audioWrites write member
  ends := by
    have nonempty : platform.timed packets ≠ [] := by
      rw [timed]
      exact mt List.map_eq_nil_iff.mp accepted.some_packet
    have audio := endsOnce_audioWrites streamSerial.toNat
      (platform.finalGranule packets endTrim48k granuleOffset48k)
      granuleOffset48k.toNat 0 nonempty
      (by rw [Nat.zero_add, length_timed])
    cases isAudio : platform.muxAudio packets streamSerial endTrim48k granuleOffset48k with
    | nil =>
        rw [muxAudio] at isAudio
        rw [isAudio] at audio
        exact audio.elim
    | cons first rest =>
        rw [muxAudio] at isAudio
        rw [isAudio] at audio
        rw [muxWrites, muxAudio, isAudio]
        exact ⟨EndInfo.noConfusion, EndInfo.noConfusion, audio⟩
  fits page member := by
    rw [pagesOf_muxWrites] at member
    rcases List.mem_cons.mp member with isHead | member
    · rw [isHead]
      exact fits_headerWrite (by decide)
        (by rw [length_opusHead]; decide) true
    · rcases List.mem_cons.mp member with isTags | member
      · rw [isTags]
        exact fits_headerWrite (by decide) (by decide) false
      · exact platform.fits_pagesFrom roomy
          (accepted.audioFits platform streamSerial)
          (by rw [Nat.zero_add, length_timed]) rfl
          (fun packet isMember => (List.not_mem_nil isMember).elim)
          page member

/-- The steps of wrapping packets. -/
theorem mux_steps {outputGainQ8 : Int16} {data : List UInt8}
    (muxed : platform.muxOpusPacketsWithTiming packets streamSerial
      preSkip48k endTrim48k granuleOffset48k outputGainQ8 = .ok data) :
    platform.Accepted packets preSkip48k endTrim48k granuleOffset48k ∧
      ∃ second third last,
        mapFailure "Could not write Opus identification header: "
            (platform.ogg.writePacket platform.ogg.newWriter
              (headerWrite streamSerial (opusHead preSkip48k outputGainQ8))) = .ok second ∧
          mapFailure "Could not write Opus comment header: "
              (platform.ogg.writePacket second
                (headerWrite streamSerial opusTags)) = .ok third ∧
            platform.writeAudio streamSerial.toNat
                (platform.finalGranule packets endTrim48k granuleOffset48k)
                granuleOffset48k.toNat packets.length 0 0
                (platform.timed packets) third = .ok last ∧
              data = platform.ogg.intoInner last ∧
                data.length ≤ voiceMemoMaxAudioBytes := by
  unfold muxOpusPacketsWithTiming at muxed
  split at muxed
  · cases muxed
  rename_i counted
  rw [Bool.or_eq_true, decide_eq_true_eq, List.isEmpty_iff] at counted
  rw [except_bind_ok] at muxed
  obtain ⟨⟨durations, decoded⟩, measured, muxed⟩ := muxed
  obtain ⟨isDurations, isDecoded, valid⟩ :=
    platform.measurePackets_ok measured
  have total : decoded = platform.samples packets := by
    rw [isDecoded, isDurations, Nat.zero_add]
    rfl
  dsimp only at muxed
  split at muxed
  · cases muxed
  rename_i bounded
  rw [except_bind_ok] at muxed
  obtain ⟨untrimmed, added, muxed⟩ := muxed
  obtain ⟨isUntrimmed, granule⟩ := checkedAdd_ok added
  rw [except_bind_ok] at muxed
  obtain ⟨final, subtracted, muxed⟩ := muxed
  obtain ⟨isFinal, trim⟩ := checkedSub_ok subtracted
  split at muxed
  · cases muxed
  rename_i kept
  rw [total] at bounded granule isUntrimmed
  rw [isUntrimmed] at trim isFinal
  have accepted : platform.Accepted packets preSkip48k endTrim48k
      granuleOffset48k :=
    { some_packet := fun none => counted (Or.inl none)
      few := Nat.not_lt.mp fun many => counted (Or.inr many)
      valid := valid
      bounded := Nat.not_lt.mp bounded
      granule := granule
      trim := trim
      kept := by
        rw [finalGranule, ← isFinal]
        exact Nat.not_le.mp kept }
  rw [except_bind_ok] at muxed
  obtain ⟨second, wroteHead, muxed⟩ := muxed
  rw [except_bind_ok] at muxed
  obtain ⟨third, wroteTags, muxed⟩ := muxed
  rw [except_bind_ok] at muxed
  obtain ⟨last, wroteAudio, muxed⟩ := muxed
  rw [isFinal, isDurations, zip_durations] at wroteAudio
  split at muxed
  · cases muxed
  rename_i size
  rw [Bool.or_eq_true, decide_eq_true_eq] at size
  cases muxed
  exact ⟨accepted, second, third, last, wroteHead, wroteTags, wroteAudio,
    rfl, Nat.not_lt.mp fun large => size (Or.inl large)⟩

/-- What packets are wrapped into. -/
theorem mux_ok (inverse : platform.ogg.Inverse) (roomy : packetsPerPage *
      (platform.opusEncodedPacketMaxBytes / 255 + 1) ≤ 255)
    {outputGainQ8 : Int16} {data : List UInt8}
    (muxed : platform.muxOpusPacketsWithTiming packets streamSerial
      preSkip48k endTrim48k granuleOffset48k outputGainQ8 = .ok data) :
    platform.Accepted packets preSkip48k endTrim48k granuleOffset48k ∧
      data = encode (pagesOf (platform.muxWrites packets streamSerial
          preSkip48k endTrim48k granuleOffset48k outputGainQ8)) ∧
        data.length ≤ voiceMemoMaxAudioBytes := by
  obtain ⟨accepted, second, third, last, wroteHead, wroteTags, wroteAudio,
    isData, size⟩ := platform.mux_steps muxed
  obtain ⟨writer, written, isInner⟩ := inverse.written _ _
    (accepted.complete platform streamSerial outputGainQ8 roomy)
  have headWritten := ok_of_mapFailure wroteHead
  have tagsWritten := ok_of_mapFailure wroteTags
  rw [muxWrites, OggCrate.writeAll, headWritten] at written
  dsimp only at written
  rw [OggCrate.writeAll, tagsWritten] at written
  have audio := platform.writeAudio_eq
    (accepted.audioFits platform streamSerial).granule written
  rw [wroteAudio] at audio
  cases audio
  exact ⟨accepted, isData.trans isInner, size⟩

end Mux

end VoicePlatform

end Ratspeak
