import Ratspeak.Library.Attempts
import Ratspeak.Voice.OggOpus

/-!
# The timing of a voice message

What the parser checks of the granule positions: the samples that the packets
declare are those to skip, those to play and those to trim, and the final
granule is where the trimming begins.
-/

namespace Ratspeak

open Library

namespace VoicePlatform

variable (platform : VoicePlatform)

/-! ## Samples and granule positions -/

/-- The headers of the packets declare so many samples in all. -/
def Declares : List (List UInt8) → Nat → Prop
  | [], total => total = 0
  | packet :: rest, total =>
      ∃ duration later,
        platform.opusPacketDurationSamples48k packet = .ok duration ∧
          Declares rest later ∧ total = duration + later

variable {platform}

theorem Declares.concat {packets : List (List UInt8)} {packet : List UInt8}
    {total duration : Nat} (before : platform.Declares packets total)
    (declared : platform.opusPacketDurationSamples48k packet = .ok duration) :
    platform.Declares (packets ++ [packet]) (total + duration) := by
  induction packets generalizing total with
  | nil =>
      exact ⟨duration, 0, declared, rfl, by rw [before, Nat.zero_add,
        Nat.add_zero]⟩
  | cons first rest ih =>
      obtain ⟨long, later, isLong, declares, rfl⟩ := before
      exact ⟨long, later + duration, isLong, ih declares, Nat.add_assoc _ _ _⟩

theorem duration_of_validateOpusPacket {packet : List UInt8} {duration : Nat}
    (accepted : platform.validateOpusPacket packet = .ok duration) :
    platform.opusPacketDurationSamples48k packet = .ok duration := by
  obtain ⟨-, accepted⟩ := ok_of_unless accepted
  obtain ⟨measured, mapped, accepted⟩ := bind_eq_ok accepted
  cases declared : platform.opusPacketDurationSamples48k packet with
  | error failure =>
      rw [declared] at mapped
      cases mapped
  | ok value =>
      rw [declared] at mapped
      cases mapped
      by_cases fits : measured < 2 ^ 64
      · rw [if_pos fits] at accepted
        exact accepted
      · rw [if_neg fits] at accepted
        cases accepted

/-- At the end of the stream the samples and the granule positions come out
even. -/
def EndsEven (audio : Audio) : Prop :=
  ∀ final, audio.finalGranule48k = some final →
    ∃ offset trim, audio.granuleOffset48k = some offset ∧
      audio.endTrim48k = some trim ∧
      offset + audio.decodedSamples48k = final + trim

theorem checkedAdd_eq_ok {first second result : Nat} {failure : String}
    (added : checkedAdd first second failure = .ok result) :
    result = first + second := by
  by_cases fits : first + second < 2 ^ 64
  · rw [checkedAdd, if_pos fits] at added
    exact (Except.ok.inj added).symm
  · rw [checkedAdd, if_neg fits] at added
    cases added

theorem checkedSub_eq_ok {first second result : Nat} {failure : String}
    (taken : checkedSub first second failure = .ok result) :
    first = result + second := by
  by_cases fits : second ≤ first
  · rw [checkedSub, if_pos fits] at taken
    cases taken
    exact (Nat.sub_add_cancel fits).symm
  · rw [checkedSub, if_neg fits] at taken
    cases taken

theorem endPage_eq_ok {audio after : Audio} {pageGranule : Nat}
    {lastInStream : Bool} (unfinished : audio.finalGranule48k = none)
    (accepted : endPage audio pageGranule lastInStream = .ok after) :
    after.packets = audio.packets ∧
      after.decodedSamples48k = audio.decodedSamples48k ∧
      EndsEven after := by
  cases lastInStream with
  | true =>
      obtain ⟨expected, added, accepted⟩ := bind_eq_ok accepted
      obtain ⟨ordered, accepted⟩ := ok_of_unless accepted
      rw [Bool.or_eq_true, decide_eq_true_eq, not_or, Nat.not_lt] at ordered
      have sum := checkedAdd_eq_ok added
      have inside := ordered.2
      cases accepted
      refine ⟨rfl, rfl, ?_⟩
      intro final isFinal
      cases isFinal
      exact ⟨_, _, rfl, rfl, by dsimp only; omega⟩
  | false =>
      unfold endPage at accepted
      rw [if_neg Bool.false_ne_true] at accepted
      have ends : ∀ final, audio.finalGranule48k = some final → False := by
        intro final isFinal
        rw [unfinished] at isFinal
        cases isFinal
      cases found : audio.granuleOffset48k with
      | none =>
          rw [found] at accepted
          obtain ⟨offset, -, accepted⟩ := bind_eq_ok accepted
          obtain ⟨expected, -, accepted⟩ := bind_eq_ok accepted
          obtain ⟨-, accepted⟩ := ok_of_unless accepted
          cases accepted
          exact ⟨rfl, rfl, fun final isFinal =>
            (ends final isFinal).elim⟩
      | some offset =>
          rw [found] at accepted
          obtain ⟨_, -, accepted⟩ := bind_eq_ok accepted
          obtain ⟨expected, -, accepted⟩ := bind_eq_ok accepted
          obtain ⟨-, accepted⟩ := ok_of_unless accepted
          cases accepted
          exact ⟨rfl, rfl, fun final isFinal =>
            (ends final isFinal).elim⟩

variable (platform) in
/-- What is known of the audio at every packet. -/
structure AudioSound (audio : Audio) : Prop where
  declared : platform.Declares audio.packets audio.decodedSamples48k
  even : EndsEven audio

theorem AudioSound.acceptPacket {streamSerial : Nat} {audio after : Audio}
    {packet : Ogg.Packet} (sound : platform.AudioSound audio)
    (accepted : platform.acceptPacket streamSerial audio packet =
      .ok after) : platform.AudioSound after := by
  obtain ⟨fresh, accepted⟩ := ok_of_unless accepted
  obtain ⟨duration, validated, accepted⟩ := bind_eq_ok accepted
  obtain ⟨decoded, added, accepted⟩ := bind_eq_ok accepted
  have unfinished : audio.finalGranule48k = none := by
    cases final : audio.finalGranule48k with
    | none => rfl
    | some granule =>
        rw [final] at fresh
        simp at fresh
  have declared := sound.declared.concat (duration_of_validateOpusPacket validated)
  rw [← checkedAdd_eq_ok added] at declared
  dsimp only at accepted
  by_cases last : packet.lastInPage = true
  · rw [if_pos last] at accepted
    obtain ⟨ended, paged, accepted⟩ := bind_eq_ok accepted
    obtain ⟨packets, samples, even⟩ :=
      endPage_eq_ok (by exact unfinished) paged
    cases accepted
    refine ⟨?_, even⟩
    dsimp only
    rw [packets, samples]
    exact declared
  · rw [if_neg last] at accepted
    by_cases ends : packet.lastInStream = true
    · rw [if_pos ends] at accepted
      cases accepted
    · rw [if_neg ends] at accepted
      cases accepted
      refine ⟨declared, ?_⟩
      intro final isFinal
      rw [unfinished] at isFinal
      cases isFinal

theorem AudioSound.readAudio {streamSerial left : Nat}
    {audio after : Audio} {reader : platform.ogg.Reader} (sound : platform.AudioSound audio)
    (accepted : platform.readAudio streamSerial left audio reader =
      .ok after) : platform.AudioSound after := by
  induction left generalizing audio reader with
  | zero =>
      unfold VoicePlatform.readAudio at accepted
      obtain ⟨⟨packet, later⟩, -, accepted⟩ := bind_eq_ok accepted
      cases packet with
      | none =>
          cases accepted
          exact sound
      | some packet =>
          obtain ⟨next, -, accepted⟩ := bind_eq_ok accepted
          cases accepted
  | succ left ih =>
      unfold VoicePlatform.readAudio at accepted
      obtain ⟨⟨packet, later⟩, -, accepted⟩ := bind_eq_ok accepted
      cases packet with
      | none =>
          cases accepted
          exact sound
      | some packet =>
          obtain ⟨next, isNext, accepted⟩ := bind_eq_ok accepted
          exact ih (sound.acceptPacket isNext) accepted

variable (platform) in
/-- The timing of a message fits its packets. -/
structure Timed (parsed : ParsedOggOpus) : Prop where
  declared : platform.Declares parsed.packets
    (parsed.metadata.preSkip48k.toNat +
      parsed.metadata.playableSamples48k + parsed.metadata.endTrim48k)
  final : parsed.metadata.finalGranule48k =
    parsed.metadata.granuleOffset48k +
      (parsed.metadata.preSkip48k.toNat + parsed.metadata.playableSamples48k)
  bounded : parsed.metadata.playableSamples48k ≤ maximumSamples

theorem AudioSound.timed {header : OpusHead} {audio : Audio}
    {parsed : ParsedOggOpus} (sound : platform.AudioSound audio)
    (concluded : concludeAudio header audio = .ok parsed) :
    platform.Timed parsed := by
  unfold concludeAudio at concluded
  cases isFinal : audio.finalGranule48k with
  | none =>
      rw [isFinal] at concluded
      cases concluded
  | some final =>
      rw [isFinal] at concluded
      obtain ⟨-, concluded⟩ := ok_of_unless concluded
      obtain ⟨skipped, skips, concluded⟩ := bind_eq_ok concluded
      obtain ⟨playable, trims, concluded⟩ := bind_eq_ok concluded
      obtain ⟨-, concluded⟩ := ok_of_unless concluded
      obtain ⟨bounded, concluded⟩ := ok_of_unless concluded
      obtain ⟨-, concluded⟩ := ok_of_unless concluded
      obtain ⟨offset, trim, isOffset, isTrim, even⟩ :=
        sound.even final isFinal
      have first := checkedSub_eq_ok skips
      have second := checkedSub_eq_ok trims
      have declared := sound.declared
      rw [isTrim, Option.getD_some] at second
      cases concluded
      refine ⟨?_, ?_, Nat.le_of_not_lt bounded⟩
      · dsimp only
        rw [isTrim, Option.getD_some]
        have total : header.preSkip48k.toNat + playable + trim =
            audio.decodedSamples48k := by
          omega
        rw [total]
        exact declared
      · dsimp only
        rw [isOffset, Option.getD_some]
        omega

/-- A message that was taken apart is timed by its granule positions. -/
theorem timed_of_parseOggOpus {data : List UInt8} {parsed : ParsedOggOpus}
    (accepted : platform.parseOggOpus data = .ok parsed) :
    platform.Timed parsed := by
  unfold parseOggOpus at accepted
  obtain ⟨serial, -, accepted⟩ := bind_eq_ok accepted
  obtain ⟨⟨head, _⟩, -, accepted⟩ := bind_eq_ok accepted
  obtain ⟨-, accepted⟩ := ok_of_unless accepted
  obtain ⟨header, -, accepted⟩ := bind_eq_ok accepted
  obtain ⟨⟨tags, _⟩, -, accepted⟩ := bind_eq_ok accepted
  obtain ⟨-, accepted⟩ := ok_of_unless accepted
  obtain ⟨_, -, accepted⟩ := bind_eq_ok accepted
  obtain ⟨audio, isRead, concluded⟩ := bind_eq_ok accepted
  have start : platform.AudioSound {} := by
    refine ⟨rfl, ?_⟩
    intro final isFinal
    cases isFinal
  exact (start.readAudio isRead).timed concluded

end VoicePlatform

end Ratspeak
