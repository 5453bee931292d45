import Ratspeak.Library.Ogg

/-!
# Voice messages as Ogg/Opus streams

The packets of a recorder are wrapped into an Ogg stream together with their
timing: how many samples to skip at the start and to trim at the end, and from
which granule position on the samples are counted.  The stream is taken apart
again under strict bounds.

The reader and the writer of pages, the length of an Opus packet and two
bounds belong to other libraries and are parameters here.
-/

namespace Ratspeak

open Library

def voiceMemoMaxDurationMs : Nat := 5 * 60 * 1000
def voiceMemoMaxAudioBytes : Nat := 1000000
def opusClockHz : Nat := 48000
def opusHeadMagic : List UInt8 :=
  [0x4F, 0x70, 0x75, 0x73, 0x48, 0x65, 0x61, 0x64]
def opusTagsMagic : List UInt8 :=
  [0x4F, 0x70, 0x75, 0x73, 0x54, 0x61, 0x67, 0x73]
def opusHeadLen : Nat := 19
def maxOpusHeadBytes : Nat := 64
def opusVersion : UInt8 := 1
def outputChannels : UInt8 := 1
def outputInputRateHz : Nat := 24000
def packetsPerPage : Nat := 16
def maxPacketCount : Nat := voiceMemoMaxDurationMs * 2 / 5
def maxPageCount : Nat := maxPacketCount + 2
def maxTagBytes : Nat := 64 * 1024
def maxTagEntryBytes : Nat := 8 * 1024
def maxTagEntries : Nat := 64

/-- The name of the program. -/
def vendor : List UInt8 := [0x52, 0x61, 0x74, 0x73, 0x70, 0x65, 0x61, 0x6B]

def maximumSamples : Nat := voiceMemoMaxDurationMs * opusClockHz / 1000

/-- A writer that takes packets one by one, and a reader that gives them. -/
structure OggCrate where
  Writer : Type
  Reader : Type
  newWriter : Writer
  writePacket : Writer → Ogg.Write → Except String Writer
  intoInner : Writer → List UInt8
  newReader : List UInt8 → Reader
  readPacket : Reader → Except String (Option Ogg.Packet × Reader)
  readPacketExpected : Reader → Except String (Ogg.Packet × Reader)

/-- What belongs to other libraries. -/
structure VoicePlatform where
  ogg : OggCrate
  opusEncodedPacketMaxBytes : Nat
  opusPacketDurationSamples48k : List UInt8 → Except String Nat
  maxEfficientSize : Nat

structure OggOpusMetadata where
  channels : UInt8
  inputSampleRateHz : Nat
  preSkip48k : UInt16
  outputGainQ8 : Int16
  granuleOffset48k : Nat
  endTrim48k : Nat
  finalGranule48k : Nat
  playableSamples48k : Nat
  durationMs : Nat
deriving DecidableEq, Repr

structure ParsedOggOpus where
  metadata : OggOpusMetadata
  packets : List (List UInt8)
deriving DecidableEq, Repr

namespace VoicePlatform

/-- Addition of unsigned numbers of 64 bits. -/
def checkedAdd (first second : Nat) (failure : String) : Except String Nat :=
  if first + second < 2 ^ 64 then .ok (first + second) else .error failure

def checkedSub (first second : Nat) (failure : String) : Except String Nat :=
  if second ≤ first then .ok (first - second) else .error failure

/-- Put a text before the failure of another library. -/
def mapFailure {Value : Type} (text : String) :
    Except String Value → Except String Value
  | .ok value => .ok value
  | .error failure => .error (text ++ failure)

end VoicePlatform

/-! ## Headers -/

structure OpusHead where
  channels : UInt8
  inputSampleRateHz : Nat
  preSkip48k : UInt16
  outputGainQ8 : Int16
deriving DecidableEq, Repr

def opusHead (preSkip48k : UInt16) (outputGainQ8 : Int16) : List UInt8 :=
  opusHeadMagic ++ [opusVersion, outputChannels] ++
    littleEndian 2 preSkip48k.toNat ++ littleEndian 4 outputInputRateHz ++
    littleEndian 2 outputGainQ8.toUInt16.toNat ++ [0]

def parseOpusHead (data : List UInt8) : Except String OpusHead :=
  let version := data.getD 8 0
  if data.length < opusHeadLen || data.take 8 ≠ opusHeadMagic ||
      !(opusVersion ≤ version && version ≤ 15) ||
      data.getD 9 0 ≠ outputChannels || data.getD 18 0 ≠ 0 then
    .error "Opus identification header is not supported"
  else if version = opusVersion && data.length ≠ opusHeadLen then
    .error "Opus version 1 identification header has trailing data"
  else
    .ok
      { channels := data.getD 9 0
        inputSampleRateHz := ofLittleEndian ((data.drop 12).take 4)
        preSkip48k := UInt16.ofNat (ofLittleEndian ((data.drop 10).take 2))
        outputGainQ8 :=
          (UInt16.ofNat (ofLittleEndian ((data.drop 16).take 2))).toInt16 }

def opusTags : List UInt8 :=
  opusTagsMagic ++ littleEndian 4 vendor.length ++ vendor ++ littleEndian 4 0

/-- A number of 32 bits, and what comes after it. -/
def readU32 (data : List UInt8) : Except String (Nat × List UInt8) :=
  if data.length < 4 then .error "Opus comment header is truncated"
  else .ok (ofLittleEndian (data.take 4), data.drop 4)

def validateComments : Nat → List UInt8 → Except String Unit
  | 0, _ => .ok ()
  | count + 1, data => do
      let (length, rest) ← readU32 data
      if maxTagEntryBytes < length then
        .error "Opus comment is too large"
      else if rest.length < length then
        .error "Opus comment is truncated"
      else validateComments count (rest.drop length)

def validateOpusTags (data : List UInt8) : Except String Unit := do
  if data.length < 16 || maxTagBytes < data.length ||
      data.take 8 ≠ opusTagsMagic then
    .error "Opus comment header is invalid"
  else
    let (vendorLen, rest) ← readU32 (data.drop 8)
    if maxTagEntryBytes < vendorLen then
      .error "Opus comment vendor is too large"
    else if rest.length < vendorLen then
      .error "Opus comment vendor is truncated"
    else
      let (commentCount, rest) ← readU32 (rest.drop vendorLen)
      if maxTagEntries < commentCount then
        .error "Opus comment count exceeds the limit"
      else validateComments commentCount rest

/-! ## Pages -/

structure PhysicalStream where
  serial : Option Nat
  expectedSequence : Nat
  pageCount : Nat
  sawEos : Bool
  partialPacketBytes : Nat
  completedPackets : Nat
deriving DecidableEq, Repr

namespace VoicePlatform

variable (platform : VoicePlatform)

def validateOpusPacket (packet : List UInt8) : Except String Nat :=
  if packet.isEmpty ||
      platform.opusEncodedPacketMaxBytes < packet.length then
    .error "Voice message contains an invalid Opus packet size"
  else do
    let duration ← mapFailure
      "Voice message contains an invalid Opus packet: "
      (platform.opusPacketDurationSamples48k packet)
    if duration < 2 ^ 64 then .ok duration
    else .error "Voice message Opus packet duration overflows"

/-- The bytes of the packet so far, the packets that are complete, and whether
one was completed on the page. -/
abbrev Lacing := Nat × Nat × Bool

/-- How long a packet may be, by how many are complete before it. -/
def packetLimit : Nat → Nat
  | 0 => maxOpusHeadBytes
  | 1 => maxTagBytes
  | _ => platform.opusEncodedPacketMaxBytes

def validateSegment (lacing : Lacing) (length : UInt8) :
    Except String Lacing :=
  let (partialPacketBytes, completedPackets, completedOnPage) := lacing
  let partialPacketBytes := partialPacketBytes + length.toNat
  if platform.packetLimit completedPackets < partialPacketBytes then
    .error "Voice message Ogg packet exceeds its size limit"
  else if length < 255 then
    if maxPacketCount + 2 < completedPackets + 1 then
      .error "Voice message Ogg packet count exceeds the limit"
    else .ok (0, completedPackets + 1, true)
  else .ok (partialPacketBytes, completedPackets, completedOnPage)

/-- One page at the front of the bytes, and the bytes after it. -/
def validatePage (stream : PhysicalStream) (data : List UInt8) :
    Except String (PhysicalStream × List UInt8) := do
  let header := data.take 27
  let flags := header.getD 5 0
  let pageSerial := ofLittleEndian ((header.drop 14).take 4)
  let sequence := ofLittleEndian ((header.drop 18).take 4)
  let rest := data.drop 27
  let segmentCount := (header.getD 26 0).toNat
  let segments := rest.take segmentCount
  let bodyLen := (segments.map UInt8.toNat).sum
  let pageGranule := ofLittleEndian ((header.drop 6).take 8)
  if data.length < 27 then
    .error "Voice message Ogg page header is truncated"
  else if header.take 4 ≠ [0x4F, 0x67, 0x67, 0x53] ||
      header.getD 4 0 ≠ 0 || flags &&& ~~~0x07 ≠ 0 then
    .error "Voice message Ogg page header is invalid"
  else if (flags &&& 0x01 ≠ 0) ≠ (stream.partialPacketBytes ≠ 0) then
    .error "Voice message Ogg continuation flag is invalid"
  else if stream.pageCount = 0 && (flags &&& 0x02 = 0 || sequence ≠ 0) then
    .error "Voice message Ogg stream does not begin correctly"
  else if stream.pageCount ≠ 0 &&
      (flags &&& 0x02 ≠ 0 || stream.serial ≠ some pageSerial) then
    .error "Voice message contains chained or multiplexed Ogg streams"
  else if sequence ≠ stream.expectedSequence then
    .error "Voice message Ogg page sequence is invalid"
  else if 2 ^ 32 ≤ stream.expectedSequence + 1 then
    .error "Voice message Ogg page sequence overflows"
  else if rest.length < segmentCount then
    .error "Voice message Ogg lacing table is truncated"
  else
    let (partialPacketBytes, completedPackets, completedOnPage) ←
      segments.foldlM platform.validateSegment
        (stream.partialPacketBytes, stream.completedPackets, false)
    if !completedOnPage && pageGranule ≠ 2 ^ 64 - 1 then
      .error "Voice message Ogg continuation page granule is invalid"
    else if completedOnPage && pageGranule = 2 ^ 64 - 1 then
      .error "Voice message Ogg completed-packet granule is invalid"
    else if (rest.drop segmentCount).length < bodyLen then
      .error "Voice message Ogg page body is truncated"
    else
      .ok
        ({ serial :=
            if stream.pageCount = 0 then some pageSerial else stream.serial
           expectedSequence := stream.expectedSequence + 1
           pageCount := stream.pageCount + 1
           sawEos := flags &&& 0x04 ≠ 0
           partialPacketBytes := partialPacketBytes
           completedPackets := completedPackets },
          (rest.drop segmentCount).drop bodyLen)

/-- The pages to the end of the bytes, of which there may be so many more. -/
def validatePages : Nat → PhysicalStream → List UInt8 →
    Except String PhysicalStream
  | left, stream, data =>
      if data.isEmpty then .ok stream
      else if stream.sawEos then
        .error "Voice message contains multiple or excessive Ogg streams"
      else
        match left with
        | 0 => .error "Voice message contains multiple or excessive Ogg streams"
        | left + 1 => do
            let (stream, data) ← platform.validatePage stream data
            validatePages left stream data

def validatePhysicalStream (data : List UInt8) : Except String Nat := do
  if data.length < 27 || voiceMemoMaxAudioBytes < data.length then
    .error "Voice message Ogg size is invalid"
  else
    let stream ← platform.validatePages maxPageCount
      { serial := none
        expectedSequence := 0
        pageCount := 0
        sawEos := false
        partialPacketBytes := 0
        completedPackets := 0 } data
    if !stream.sawEos || stream.partialPacketBytes ≠ 0 ||
        stream.completedPackets < 3 then
      .error "Voice message Ogg stream has no end marker"
    else
      match stream.serial with
      | none => .error "Voice message Ogg stream is empty"
      | some serial => .ok serial

/-! ## Wrapping packets -/

/-- The durations of the packets, and their sum after what was decoded
before. -/
def measurePackets : Nat → List (List UInt8) →
    Except String (List Nat × Nat)
  | decoded, [] => .ok ([], decoded)
  | decoded, packet :: rest => do
      let duration ← platform.validateOpusPacket packet
      let decoded ← checkedAdd decoded duration "Voice message duration overflows"
      let (durations, total) ← measurePackets decoded rest
      pure (duration :: durations, total)

/-- Write the packets of the given indices, of which there are so many in
all. -/
def writeAudio (serial finalGranule48k granuleOffset48k count : Nat) :
    Nat → Nat → List (List UInt8 × Nat) → platform.ogg.Writer →
      Except String platform.ogg.Writer
  | _, _, [], writer => .ok writer
  | index, granule48k, (packet, duration) :: rest, writer => do
      let granule48k := granule48k + duration
      let last := index + 1 = count
      let endInfo : Ogg.EndInfo :=
        if last then .endStream
        else if (index + 1) % packetsPerPage = 0 then .endPage
        else .normalPacket
      let packetGranule ←
        if last then .ok finalGranule48k
        else
          checkedAdd granuleOffset48k granule48k "Voice message granule position overflows"
      let writer ← mapFailure "Could not write Opus audio packet: "
        (platform.ogg.writePacket writer
          { data := packet
            serial := serial
            endInfo := endInfo
            granule := packetGranule })
      writeAudio serial finalGranule48k granuleOffset48k count (index + 1)
        granule48k rest writer

def muxOpusPacketsWithTiming (packets : List (List UInt8))
    (streamSerial : UInt32) (preSkip48k : UInt16) (endTrim48k : UInt64)
    (granuleOffset48k : UInt64) (outputGainQ8 : Int16) :
    Except String (List UInt8) := do
  if packets.isEmpty || maxPacketCount < packets.length then
    .error "Voice message has an invalid Opus packet count"
  else
    let (packetDurations, decodedSamples48k) ← platform.measurePackets 0 packets
    if maximumSamples < decodedSamples48k then
      .error "Voice message duration exceeds the limit"
    else
      let untrimmed ← checkedAdd granuleOffset48k.toNat decodedSamples48k
        "Voice message granule position overflows"
      let finalGranule48k ← checkedSub untrimmed endTrim48k.toNat
        "Voice message end trim is invalid"
      if finalGranule48k ≤ preSkip48k.toNat then
        .error "Voice message trim removes all audio"
      else
        let writer ← mapFailure
          "Could not write Opus identification header: "
          (platform.ogg.writePacket platform.ogg.newWriter
            { data := opusHead preSkip48k outputGainQ8
              serial := streamSerial.toNat
              endInfo := .endPage
              granule := 0 })
        let writer ← mapFailure "Could not write Opus comment header: "
          (platform.ogg.writePacket writer
            { data := opusTags
              serial := streamSerial.toNat
              endInfo := .endPage
              granule := 0 })
        let writer ← platform.writeAudio streamSerial.toNat finalGranule48k
          granuleOffset48k.toNat packets.length 0 0
          (packets.zip packetDurations) writer
        let data := platform.ogg.intoInner writer
        if voiceMemoMaxAudioBytes < data.length ||
            platform.maxEfficientSize ≤ data.length then
          .error "Voice message exceeds the Ogg/Opus size limit"
        else .ok data

/-! ## Taking a stream apart -/

/-- What is known of the audio so far. -/
structure Audio where
  packets : List (List UInt8) := []
  decodedSamples48k : Nat := 0
  previousPageGranule48k : Option Nat := none
  granuleOffset48k : Option Nat := none
  finalGranule48k : Option Nat := none
  endTrim48k : Option Nat := none
deriving DecidableEq, Repr

/-- The page ends with this packet. -/
def endPage (audio : Audio) (pageGranule : Nat) (lastInStream : Bool) :
    Except String Audio := do
  if lastInStream then
    let offset := audio.granuleOffset48k.getD (pageGranule - audio.decodedSamples48k)
    let expected ← checkedAdd offset audio.decodedSamples48k
      "Ogg/Opus granule position overflows"
    if audio.previousPageGranule48k.any (pageGranule < ·) ||
        expected < pageGranule then
      .error "Ogg/Opus final granule position is invalid"
    else
      .ok
        { audio with
          granuleOffset48k := some offset
          endTrim48k := some (expected - pageGranule)
          finalGranule48k := some pageGranule
          previousPageGranule48k := some pageGranule }
  else
    let offset ←
      match audio.granuleOffset48k with
      | some offset => .ok offset
      | none =>
          checkedSub pageGranule audio.decodedSamples48k
            "Ogg/Opus initial granule position is invalid"
    let expected ← checkedAdd offset audio.decodedSamples48k
      "Ogg/Opus granule position overflows"
    if pageGranule ≠ expected then
      .error "Ogg/Opus intermediate granule position is invalid"
    else
      .ok
        { audio with
          granuleOffset48k := some offset
          previousPageGranule48k := some pageGranule }

/-- One packet of audio. -/
def acceptPacket (streamSerial : Nat) (audio : Audio)
    (packet : Ogg.Packet) : Except String Audio := do
  if packet.streamSerial ≠ streamSerial || packet.firstInStream ||
      audio.finalGranule48k.isSome ||
      maxPacketCount ≤ audio.packets.length then
    .error "Ogg/Opus logical stream is invalid"
  else
    let duration ← platform.validateOpusPacket packet.data
    let decodedSamples48k ← checkedAdd audio.decodedSamples48k duration
      "Voice message duration overflows"
    let audio := { audio with decodedSamples48k := decodedSamples48k }
    let audio ←
      if packet.lastInPage then
        endPage audio packet.absgpPage packet.lastInStream
      else if packet.lastInStream then
        .error "Ogg/Opus end-of-stream placement is invalid"
      else .ok audio
    .ok { audio with packets := audio.packets ++ [packet.data] }

/-- The packets to the end of the stream.  There cannot be more than so many,
since then one is refused. -/
def readAudio (streamSerial : Nat) :
    Nat → Audio → platform.ogg.Reader → Except String Audio
  | left, audio, reader => do
      let (next, reader) ← mapFailure "Could not read Opus audio packet: "
        (platform.ogg.readPacket reader)
      match next with
      | none => .ok audio
      | some packet =>
          let audio ← platform.acceptPacket streamSerial audio packet
          match left with
          | 0 => .error "Ogg/Opus logical stream is invalid"
          | left + 1 => readAudio streamSerial left audio reader

/-- The metadata of a stream that was read to its end. -/
def concludeAudio (header : OpusHead) (audio : Audio) :
    Except String ParsedOggOpus := do
  match audio.finalGranule48k with
  | none => .error "Ogg/Opus stream has no complete audio"
  | some finalGranule48k =>
      if audio.packets.isEmpty then
        .error "Ogg/Opus stream has no complete audio"
      else
        let granuleOffset48k := audio.granuleOffset48k.getD 0
        let endTrim48k := audio.endTrim48k.getD 0
        let removed := "Ogg/Opus trimming removes all audio"
        let skipped ← checkedSub audio.decodedSamples48k header.preSkip48k.toNat removed
        let playableSamples48k ← checkedSub skipped endTrim48k removed
        if playableSamples48k = 0 then .error removed
        else if maximumSamples < playableSamples48k then
          .error "Voice message duration exceeds the limit"
        else
          let durationMs :=
            (min (playableSamples48k * 1000) (2 ^ 64 - 1) + (opusClockHz - 1)) / opusClockHz
          if 2 ^ 32 ≤ durationMs then
            .error "Voice message duration overflows"
          else
            .ok
              { metadata :=
                  { channels := header.channels
                    inputSampleRateHz := header.inputSampleRateHz
                    preSkip48k := header.preSkip48k
                    outputGainQ8 := header.outputGainQ8
                    granuleOffset48k := granuleOffset48k
                    endTrim48k := endTrim48k
                    finalGranule48k := finalGranule48k
                    playableSamples48k := playableSamples48k
                    durationMs := durationMs }
                packets := audio.packets }

def parseOggOpus (data : List UInt8) : Except String ParsedOggOpus := do
  let streamSerial ← platform.validatePhysicalStream data
  let reader := platform.ogg.newReader data
  let (head, reader) ← mapFailure
    "Could not read Opus identification header: "
    (platform.ogg.readPacketExpected reader)
  if head.streamSerial ≠ streamSerial || !head.firstInStream ||
      !head.firstInPage || !head.lastInPage || head.lastInStream ||
      head.absgpPage ≠ 0 then
    .error "Opus identification header placement is invalid"
  else
    let header ← parseOpusHead head.data
    let (tags, reader) ← mapFailure "Could not read Opus comment header: "
      (platform.ogg.readPacketExpected reader)
    if tags.streamSerial ≠ streamSerial || tags.firstInStream ||
        tags.lastInStream || !tags.lastInPage || tags.absgpPage ≠ 0 then
      .error "Opus comment header placement is invalid"
    else
      validateOpusTags tags.data
      let audio ← platform.readAudio streamSerial maxPacketCount {} reader
      concludeAudio header audio

end VoicePlatform

end Ratspeak
