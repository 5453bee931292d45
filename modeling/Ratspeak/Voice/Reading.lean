import Ratspeak.Voice.Streams

/-!
# Reading a stream

Taking apart the pages of a stream of audio comes to accepting, one by one,
the packets that were written: that a packet shares its page with others makes
no difference.  The headers are read as they were written.
-/

namespace Ratspeak

open Library Ogg

namespace VoicePlatform

variable (platform : VoicePlatform)

/-! ## Packets and pages -/

/-- A reader of so many packets is read to its end. -/
theorem readAudio_eq {streamSerial left : Nat} {packets : List Packet}
    {audio : Audio} {reader : platform.ogg.Reader}
    (reads : platform.ogg.ReadsAll reader packets) (enough : packets.length ≤ left) :
    platform.readAudio streamSerial left audio reader =
      packets.foldlM (platform.acceptPacket streamSerial) audio := by
  induction packets generalizing left audio reader with
  | nil =>
      obtain ⟨after, isRead⟩ := reads
      rw [readAudio, isRead]
      rfl
  | cons packet rest ih =>
      obtain ⟨after, isRead, later⟩ := reads
      rw [List.length_cons] at enough
      obtain ⟨less, isLess⟩ := Nat.exists_eq_add_of_le' (show 1 ≤ left by
        omega)
      rw [readAudio, isRead, List.foldlM_cons, isLess]
      simp only [mapFailure, bind, Except.bind]
      cases platform.acceptPacket streamSerial audio packet with
      | error failure => rfl
      | ok next => exact ih later (by omega)

/-- What is accepted of a packet that was written. -/
def acceptWrite (streamSerial : Nat) (audio : Audio) (write : Write) :
    Except String Audio :=
  platform.acceptPacket streamSerial audio
    { data := write.data
      streamSerial := write.serial
      firstInStream := false
      lastInStream := write.endInfo = .endStream
      firstInPage := false
      lastInPage := write.endInfo ≠ .normalPacket
      absgpPage := write.granule }

/-- Where a packet stands on its page does not matter, and the granule
position only on the last packet of the page. -/
theorem acceptPacket_eq_acceptWrite {streamSerial : Nat} {audio : Audio}
    {packet : Packet} {write : Write} (data : packet.data = write.data)
    (serial : packet.streamSerial = write.serial)
    (notFirst : packet.firstInStream = false) (lastInStream : packet.lastInStream =
      decide (write.endInfo = .endStream))
    (lastInPage : packet.lastInPage =
      decide (write.endInfo ≠ .normalPacket))
    (granule : packet.lastInPage = true → packet.absgpPage = write.granule) :
    platform.acceptPacket streamSerial audio packet =
      platform.acceptWrite streamSerial audio write := by
  unfold acceptWrite acceptPacket
  cases last : packet.lastInPage with
  | false =>
      rw [last] at lastInPage
      simp only [data, serial, notFirst, lastInStream, ← lastInPage,
        Bool.false_eq_true, if_false]
  | true =>
      rw [last] at lastInPage
      simp only [data, serial, notFirst, lastInStream, ← lastInPage, granule last, if_true]

/-- The packets of one page: those that it holds, and the one it ends
with. -/
private theorem foldlM_page {streamSerial : Nat} {audio : Audio}
    {page : Page} {held : List Write} {write : Write} (first : Bool)
    (normal : ∀ other ∈ held, other.endInfo = .normalPacket)
    (serials : ∀ other ∈ held, other.serial = page.serial)
    (serial : write.serial = page.serial) (notFirst : page.first = false)
    (last : page.last = decide (write.endInfo = .endStream))
    (ends : write.endInfo ≠ .normalPacket) (granule : page.granule = write.granule) :
    (packetsFrom page first (held.map Write.data ++ [write.data])).foldlM
        (platform.acceptPacket streamSerial) audio =
      (held ++ [write]).foldlM (platform.acceptWrite streamSerial)
        audio := by
  induction held generalizing audio first with
  | nil =>
      rw [List.map_nil, List.nil_append, List.nil_append, packetsFrom,
        packetsFrom, List.foldlM_cons, List.foldlM_cons,
        @acceptPacket_eq_acceptWrite platform streamSerial audio _ write rfl
          serial.symm (by rw [notFirst]; rfl)
          (by rw [last, List.isEmpty_nil, Bool.and_true])
          (by rw [List.isEmpty_nil, decide_eq_true ends])
          (fun _ => granule)]
      rfl
  | cons other rest ih =>
      have isNormal := normal other List.mem_cons_self
      have notLast : (rest.map Write.data ++ [write.data]).isEmpty =
          false := by
        rw [List.isEmpty_eq_false_iff]
        exact List.append_ne_nil_of_right_ne_nil _ (List.cons_ne_nil _ _)
      rw [List.map_cons, List.cons_append, List.cons_append, packetsFrom,
        List.foldlM_cons, List.foldlM_cons, notLast,
        @acceptPacket_eq_acceptWrite platform streamSerial audio _ other rfl
          (serials other List.mem_cons_self).symm (by rw [notFirst]; rfl)
          (by rw [Bool.and_false, isNormal]; rfl) (by rw [isNormal]; rfl)
          (fun impossible => Bool.noConfusion impossible)]
      cases platform.acceptWrite streamSerial audio other with
      | error failure => rfl
      | ok next =>
          exact ih false
            (fun later member =>
              normal later (List.mem_cons_of_mem other member))
            (fun later member =>
              serials later (List.mem_cons_of_mem other member))

/-- Reading the pages is accepting the packets in turn. -/
theorem foldlM_pagesFrom {streamSerial sequence : Nat} {audio : Audio}
    {held writes : List Write} (normal : ∀ other ∈ held, other.endInfo = .normalPacket)
    (serials : ∀ other ∈ held ++ writes, other.serial = streamSerial) (ends : EndsOnce writes) :
    (packetsOf (pagesFrom false sequence (held.map Write.data)
        writes)).foldlM (platform.acceptPacket streamSerial) audio =
      (held ++ writes).foldlM (platform.acceptWrite streamSerial)
        audio := by
  induction writes generalizing sequence audio held with
  | nil => exact ends.elim
  | cons write rest ih =>
      have serial : write.serial = streamSerial :=
        serials write (List.mem_append_right held List.mem_cons_self)
      have together : held ++ write :: rest = (held ++ [write]) ++ rest := by
        rw [List.append_assoc, List.singleton_append]
      have heldSerials : ∀ other ∈ held, other.serial = write.serial :=
        fun other member =>
          (serials other (List.mem_append_left _ member)).trans serial.symm
      have page := fun last isLast goesOn =>
        @foldlM_page platform streamSerial audio
          (pageWith false sequence (held.map Write.data) write last) held
          write true normal heldSerials rfl rfl isLast goesOn rfl
      rw [pagesFrom]
      cases isEnd : write.endInfo with
      | normalPacket =>
          have later : EndsOnce rest :=
            ends.later (by rw [isEnd]; exact EndInfo.noConfusion)
          have moved := @ih sequence audio
            (held ++ [write])
            (by
              intro other member
              rcases List.mem_append.mp member with before | now
              · exact normal other before
              · rw [List.mem_singleton.mp now]
                exact isEnd)
            (by rw [← together]; exact serials) later
          rw [List.map_append] at moved
          rw [together]
          exact moved
      | endPage =>
          have later : EndsOnce rest :=
            ends.later (by rw [isEnd]; exact EndInfo.noConfusion)
          have first := page false (by rw [isEnd]; rfl)
            (by rw [isEnd]; exact EndInfo.noConfusion)
          dsimp only
          rw [packetsOf, List.flatMap_cons, List.foldlM_append, together, List.foldlM_append]
          refine (congrArg (· >>= _) first).trans ?_
          cases (held ++ [write]).foldlM (platform.acceptWrite streamSerial) audio with
          | error failure => rfl
          | ok next =>
              exact @ih (sequence + 1) next []
                (fun other member => (List.not_mem_nil member).elim)
                (fun other member =>
                  serials other (List.mem_append_right held
                    (List.mem_cons_of_mem write member))) later
      | endStream =>
          have nothingMore : rest = [] :=
            ends.nothing isEnd
          rw [nothingMore]
          dsimp only
          rw [pagesFrom, packetsOf, List.flatMap_singleton]
          exact page true (by rw [isEnd]; rfl)
            (by rw [isEnd]; exact EndInfo.noConfusion)

/-! ## Headers -/

theorem parseOpusHead_opusHead (preSkip48k : UInt16) (outputGainQ8 : Int16) :
    parseOpusHead (opusHead preSkip48k outputGainQ8) =
      .ok
        { channels := outputChannels
          inputSampleRateHz := outputInputRateHz
          preSkip48k := preSkip48k
          outputGainQ8 := outputGainQ8 } := by
  have rate : ((opusHead preSkip48k outputGainQ8).drop 12).take 4 =
      littleEndian 4 outputInputRateHz :=
    rfl
  have skip : ((opusHead preSkip48k outputGainQ8).drop 10).take 2 =
      littleEndian 2 preSkip48k.toNat :=
    rfl
  have gain : ((opusHead preSkip48k outputGainQ8).drop 16).take 2 =
      littleEndian 2 outputGainQ8.toUInt16.toNat :=
    rfl
  unfold parseOpusHead
  dsimp only
  rw [rate, skip, gain, ofLittleEndian_littleEndian (by decide),
    ofLittleEndian_littleEndian preSkip48k.toNat_lt,
    ofLittleEndian_littleEndian outputGainQ8.toUInt16.toNat_lt,
    UInt16.ofNat_toNat, UInt16.ofNat_toNat]
  rfl

theorem validateOpusTags_opusTags : validateOpusTags opusTags = .ok () := by
  decide +kernel

end VoicePlatform

end Ratspeak
