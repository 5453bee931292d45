import Ratspeak.Library.Deliveries
import Ratspeak.Voice.RoundTrip
import Ratspeak.Voice.Timing

/-!
# Playing a voice message

A message that was taken apart is played from a position on.  The source
decodes packet after packet; it drops the samples before the position, hands
out those that remain, and leaves out what is trimmed at the end.  That the
packets do not run out before its counters do is what the parser established.
-/

namespace Ratspeak

open Library

/-- The decoder, the arithmetic of samples and the check of a frame, which
belong to another library. -/
structure AudioCrate where
  Decoder : Type
  Sample : Type
  Gain : Type
  newDecoder : Except String Decoder
  decodePacket : Decoder → List UInt8 → Except String (List Sample) × Decoder
  outputGain : Int16 → Gain
  amplify : Gain → Sample → Sample
  newFrame : List Sample → Except String (List Sample)

structure NativeVoiceMemoSource (audio : AudioCrate) where
  decoder : audio.Decoder
  packets : List (List UInt8)
  discardSamples48k : Nat
  remainingSamples48k : Nat
  outputGain : audio.Gain
  exhausted : Bool

namespace NativeVoiceMemoSource

open VoicePlatform

variable {audio : AudioCrate}

def new (audio : AudioCrate) (parsed : ParsedOggOpus) (positionMs : UInt32) :
    Except String (NativeVoiceMemoSource audio) := do
  let decoder ← mapFailure "Could not initialize voice memo playback: " audio.newDecoder
  let positionSamples48k := min (min (positionMs.toNat * 48) (2 ^ 64 - 1))
    parsed.metadata.playableSamples48k
  let discardSamples48k ← VoicePlatform.checkedAdd parsed.metadata.preSkip48k.toNat
    positionSamples48k "Voice message seek position overflows"
  let remainingSamples48k :=
    parsed.metadata.playableSamples48k - positionSamples48k
  pure
    { decoder := decoder
      packets := parsed.packets
      discardSamples48k := discardSamples48k
      remainingSamples48k := remainingSamples48k
      outputGain := audio.outputGain parsed.metadata.outputGainQ8
      exhausted := remainingSamples48k = 0 }

/-- The loop over the packets that are left. -/
def nextFrom : List (List UInt8) → NativeVoiceMemoSource audio →
    Except String (Option (List audio.Sample)) × NativeVoiceMemoSource audio
  | packets, source =>
      if source.exhausted then (.ok none, { source with packets := packets })
      else
        match packets with
        | [] =>
            let source := { source with packets := [], exhausted := true }
            if source.remainingSamples48k ≠ 0 then
              (.error "Voice message ended before its final granule", source)
            else (.ok none, source)
        | packet :: rest =>
            let decoded := audio.decodePacket source.decoder packet
            let source :=
              { source with packets := rest, decoder := decoded.2 }
            match decoded.1 with
            | .error error =>
                (.error ("Could not decode voice memo audio: " ++ error), source)
            | .ok frame =>
                if frame.length ≤ source.discardSamples48k then
                  nextFrom rest
                    { source with
                      discardSamples48k :=
                        source.discardSamples48k - frame.length }
                else
                  let start := source.discardSamples48k
                  let source := { source with discardSamples48k := 0 }
                  let available := frame.length - start
                  let take := min available source.remainingSamples48k
                  if take = 0 then
                    (.ok none, { source with exhausted := true })
                  else
                    let samples := ((frame.drop start).take take).map
                      (audio.amplify source.outputGain)
                    let remainingSamples48k :=
                      source.remainingSamples48k - take
                    (mapFailure "Could not prepare voice memo audio: "
                        ((audio.newFrame samples).map some),
                      { source with
                        remainingSamples48k := remainingSamples48k
                        exhausted := remainingSamples48k = 0 })

def nextDecoded (source : NativeVoiceMemoSource audio) :
    Except String (Option (List audio.Sample)) × NativeVoiceMemoSource audio :=
  nextFrom source.packets source

/-- The decoder yields for every packet in turn as many samples as its header
declares; together they are these. -/
inductive Decodes (platform : VoicePlatform) (audio : AudioCrate) :
    audio.Decoder → List (List UInt8) → List audio.Sample → Prop
  | nil (decoder : audio.Decoder) : Decodes platform audio decoder [] []
  | cons {decoder later : audio.Decoder} {packet : List UInt8}
      {rest : List (List UInt8)} {frame samples : List audio.Sample} :
      audio.decodePacket decoder packet = (.ok frame, later) →
      platform.opusPacketDurationSamples48k packet = .ok frame.length →
      Decodes platform audio later rest samples →
      Decodes platform audio decoder (packet :: rest) (frame ++ samples)

theorem Decodes.length {platform : VoicePlatform} {decoder : audio.Decoder}
    {packets : List (List UInt8)} {samples : List audio.Sample}
    (decodes : Decodes platform audio decoder packets samples) :
    ∀ {total : Nat}, platform.Declares packets total →
      samples.length = total := by
  induction decodes with
  | nil decoder =>
      intro total declares
      exact declares.symm
  | cons decoded declared _ ih =>
      intro total declares
      obtain ⟨duration, others, same, behind, rfl⟩ := declares
      rw [declared] at same
      cases same
      rw [List.length_append, ih behind]

/-! ## What the source still owes -/

/-- The source owes the samples behind those to discard, as many as remain,
and its packets are enough for them. -/
structure Owes (platform : VoicePlatform)
    (source : NativeVoiceMemoSource audio) (owed : List audio.Sample) :
    Prop where
  ended : source.exhausted = decide (source.remainingSamples48k = 0)
  decodes : ∃ samples,
    Decodes platform audio source.decoder source.packets samples ∧
      source.discardSamples48k + source.remainingSamples48k ≤ samples.length ∧
      owed = ((samples.drop source.discardSamples48k).take
        source.remainingSamples48k).map (audio.amplify source.outputGain)

/-- The check of a frame takes one that has a sample, and changes nothing. -/
def Frames (audio : AudioCrate) : Prop :=
  ∀ samples : List audio.Sample, samples ≠ [] → audio.newFrame samples = .ok samples

variable {platform : VoicePlatform}

/-- A frame in front of the others gives what it has behind the samples to
discard. -/
private theorem window_append {Sample : Type} (frame others : List Sample)
    {discard remaining : Nat} (inside : discard ≤ frame.length) :
    ((frame ++ others).drop discard).take remaining =
      (frame.drop discard).take
          (min (frame.length - discard) remaining) ++
        others.take
          (remaining - min (frame.length - discard) remaining) := by
  have front : (frame.drop discard).take
      (min (frame.length - discard) remaining) =
        (frame.drop discard).take remaining := by
    rw [← List.length_drop, Nat.min_comm]
    exact List.take_eq_take_min.symm
  have left : remaining - min (frame.length - discard) remaining =
      remaining - (frame.length - discard) := by
    omega
  rw [List.drop_append_of_le_length inside, List.take_append, front, left, List.length_drop]

/-- One call hands out a part of what the source owes, or says that nothing
is left. -/
theorem delivers (frames : Frames audio) :
    Delivers (@nextDecoded audio) (Owes platform) := by
  rintro ⟨decoder, packets, discard, remaining, gain, exhausted⟩ owed
    ⟨ended, samples, decodes, enough, rfl⟩
  dsimp only at ended decodes enough ⊢
  unfold nextDecoded
  dsimp only
  by_cases nothing : remaining = 0
  · -- An exhausted source stays as it is.
    subst nothing
    rw [decide_eq_true rfl] at ended
    subst ended
    have same : nextFrom packets
        (⟨decoder, packets, discard, 0, gain, true⟩ : NativeVoiceMemoSource audio) =
        (.ok none, ⟨decoder, packets, discard, 0, gain, true⟩) := by
      unfold nextFrom
      rfl
    rw [same]
    exact Or.inl ⟨rfl, rfl, rfl, samples, decodes, enough, rfl⟩
  rw [decide_eq_false nothing] at ended
  subst ended
  induction decodes generalizing discard with
  | nil decoder =>
      rw [List.length_nil] at enough
      omega
  | @cons decoder later packet rest frame others decoded declared behind
      ih =>
      rw [List.length_append] at enough
      unfold nextFrom
      rw [if_neg Bool.false_ne_true]
      dsimp only
      rw [decoded]
      dsimp only
      by_cases whole : frame.length ≤ discard
      · -- The whole frame lies before the position.
        have same : ((frame ++ others).drop discard).take remaining =
            (others.drop (discard - frame.length)).take remaining := by
          rw [List.drop_append, List.drop_eq_nil_of_le whole, List.nil_append]
        rw [if_pos whole, same]
        exact ih (discard - frame.length) (by omega)
      · have some_ : min (frame.length - discard) remaining ≠ 0 := by
          omega
        have inside : discard ≤ frame.length := Nat.le_of_not_le whole
        have handed : ((frame.drop discard).take
            (min (frame.length - discard) remaining)).map
              (audio.amplify gain) ≠ [] := by
          rw [ne_eq, List.map_eq_nil_iff, List.take_eq_nil_iff, List.drop_eq_nil_iff]
          omega
        rw [if_neg whole, if_neg some_, frames _ handed,
          window_append frame others inside, List.map_append]
        refine Or.inr ⟨_, _, rfl, handed, rfl, rfl, others, behind, ?_, rfl⟩
        dsimp only
        omega

theorem Timed.owes {parsed : ParsedOggOpus} {decoder : audio.Decoder}
    {samples : List audio.Sample} (timed : platform.Timed parsed)
    (decodes : Decodes platform audio decoder parsed.packets samples)
    (initialized : audio.newDecoder = .ok decoder) (positionMs : UInt32) :
    let playable := parsed.metadata.playableSamples48k
    let position := min (positionMs.toNat * 48) playable
    ∃ source, new audio parsed positionMs = .ok source ∧
      Owes platform source
        (((samples.drop (parsed.metadata.preSkip48k.toNat + position)).take
          (playable - position)).map
            (audio.amplify
              (audio.outputGain parsed.metadata.outputGainQ8))) := by
  intro playable position
  have long := decodes.length timed.declared
  have bounded : playable ≤ 14400000 := timed.bounded
  have word := positionMs.toNat_lt
  have skip := parsed.metadata.preSkip48k.toNat_lt
  have saturated : min (positionMs.toNat * 48) (2 ^ 64 - 1) =
      positionMs.toNat * 48 := by
    omega
  have clamped : position ≤ playable := Nat.min_le_right _ _
  have fits : parsed.metadata.preSkip48k.toNat + position < 2 ^ 64 := by
    omega
  have added : VoicePlatform.checkedAdd parsed.metadata.preSkip48k.toNat position
      "Voice message seek position overflows" =
        .ok (parsed.metadata.preSkip48k.toNat + position) :=
    if_pos fits
  refine ⟨⟨decoder, parsed.packets,
    parsed.metadata.preSkip48k.toNat + position, playable - position,
    audio.outputGain parsed.metadata.outputGainQ8,
    playable - position = 0⟩, ?_, rfl, samples, decodes, ?_, rfl⟩
  · unfold new
    rw [initialized, mapFailure, ok_bind]
    dsimp only
    rw [saturated, added]
    rfl
  · dsimp only
    omega

/-- What is heard of a message is the part of the decoded stream from the
position on, clamped to what can be played, to the final granule: frame after
frame, and then nothing.  No call fails. -/
theorem answers_nextDecoded {data : List UInt8} {parsed : ParsedOggOpus}
    {decoder : audio.Decoder} {samples : List audio.Sample}
    (accepted : platform.parseOggOpus data = .ok parsed)
    (initialized : audio.newDecoder = .ok decoder)
    (decodes : Decodes platform audio decoder parsed.packets samples)
    (frames : Frames audio) (positionMs : UInt32) :
    let position := min (positionMs.toNat * 48) parsed.metadata.playableSamples48k
    let start := parsed.metadata.preSkip48k.toNat + position
    let stop := parsed.metadata.finalGranule48k - parsed.metadata.granuleOffset48k
    start ≤ stop ∧ stop ≤ samples.length ∧
      parsed.metadata.granuleOffset48k + stop = parsed.metadata.finalGranule48k ∧
      ∃ source, new audio parsed positionMs = .ok source ∧
        ∃ handed : List (List audio.Sample),
          handed.flatten =
            ((samples.take stop).drop start).map
              (audio.amplify (audio.outputGain parsed.metadata.outputGainQ8)) ∧
          (∀ frame ∈ handed, frame ≠ []) ∧
          ∀ calls, answers nextDecoded calls source =
            handedOut handed calls := by
  intro position start stop
  have timed := timed_of_parseOggOpus accepted
  have long := decodes.length timed.declared
  have final := timed.final
  have clamped : position ≤ parsed.metadata.playableSamples48k :=
    Nat.min_le_right _ _
  have length : stop = start +
      (parsed.metadata.playableSamples48k - position) := by
    omega
  obtain ⟨source, created, owes⟩ :=
    Timed.owes timed decodes initialized positionMs
  obtain ⟨handed, whole, each, all⟩ :=
    exists_frames (delivers frames) owes
  refine ⟨by omega, by omega, by omega, source, created, handed, ?_, each,
    all⟩
  rw [whole, length, List.drop_take, Nat.add_sub_cancel_left]

/-! ## A message of three packets -/

/-- A decoder that yields the last byte of a packet as each of its samples. -/
def markedCrate : AudioCrate where
  Decoder := Unit
  Sample := UInt8
  Gain := Unit
  newDecoder := .ok ()
  decodePacket _ packet :=
    ((pagePlatform.opusPacketDurationSamples48k packet).map
      fun duration => List.replicate duration (packet.getLastD 0), ())
  outputGain _ := ()
  amplify _ sample := sample
  newFrame samples :=
    if samples.isEmpty then .error "empty frame" else .ok samples

/-- Three packets without the first 25 milliseconds and the last 10. -/
def threePackets : Except String (List UInt8) :=
  pagePlatform.muxOpusPacketsWithTiming [[0xF8, 1], [0xF8, 2], [0xF8, 3]] 7 1200 480 0 0

theorem decodes_threePackets :
    Decodes pagePlatform markedCrate () [[0xF8, 1], [0xF8, 2], [0xF8, 3]]
      (List.replicate 960 (1 : UInt8) ++
        (List.replicate 960 2 ++ (List.replicate 960 3 ++ []))) := by
  have declared : ∀ mark : UInt8,
      pagePlatform.opusPacketDurationSamples48k [0xF8, mark] =
        .ok (List.replicate 960 mark).length := by
    intro mark
    rw [List.length_replicate]
    rfl
  exact .cons (by rfl) (declared 1)
    (.cons (by rfl) (declared 2) (.cons (by rfl) (declared 3) (.nil ())))

/-- From 5 milliseconds on, the first packet is skipped whole, the second one
in part, and the third one is trimmed. -/
theorem answers_nextDecoded_threePackets :
    ∃ data parsed source handed,
      threePackets = .ok data ∧
      pagePlatform.parseOggOpus data = .ok parsed ∧
      new markedCrate parsed 5 = .ok source ∧
      handed.flatten = List.replicate 480 (2 : UInt8) ++ List.replicate 480 3 ∧
      ∀ calls, answers (@nextDecoded markedCrate) calls source =
        handedOut handed calls := by
  have parses : (threePackets.bind
      pagePlatform.parseOggOpus).toOption.map (fun parsed =>
        (parsed.packets, parsed.metadata.preSkip48k.toNat,
          parsed.metadata.playableSamples48k,
          parsed.metadata.finalGranule48k,
          parsed.metadata.granuleOffset48k)) =
      some ([[0xF8, 1], [0xF8, 2], [0xF8, 3]], 1200, 1200, 2400, 0) := by
    decide +kernel
  cases muxed : threePackets with
  | error failure =>
      rw [muxed] at parses
      cases parses
  | ok data =>
      rw [muxed] at parses
      cases accepted : pagePlatform.parseOggOpus data with
      | error failure =>
          simp only [Except.bind, accepted] at parses
          cases parses
      | ok parsed =>
          simp only [Except.bind, accepted, Except.toOption,
            Option.map_some, Option.some.injEq, Prod.mk.injEq] at parses
          obtain ⟨packets, skip, playable, final, offset⟩ := parses
          have decodes := decodes_threePackets
          rw [← packets] at decodes
          have frames : Frames markedCrate := by
            intro samples some_
            exact if_neg (fun none => some_ (List.isEmpty_iff.mp none))
          obtain ⟨-, -, -, source, created, handed, whole, -, all⟩ :=
            answers_nextDecoded accepted rfl decodes frames 5
          refine ⟨data, parsed, source, handed, rfl, accepted, created, ?_, all⟩
          rw [whole, skip, playable, final, offset]
          have unamplified : markedCrate.amplify
              (markedCrate.outputGain parsed.metadata.outputGainQ8) = id :=
            rfl
          have part : ((List.replicate 960 (1 : UInt8) ++
              (List.replicate 960 2 ++ (List.replicate 960 3 ++ []))).take
                2400).drop 1440 =
                  List.replicate 480 2 ++ List.replicate 480 3 := by
            decide +kernel
          rw [unamplified, List.map_id]
          exact part

end NativeVoiceMemoSource

end Ratspeak
