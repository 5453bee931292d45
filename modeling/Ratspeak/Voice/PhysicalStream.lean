import Ratspeak.Voice.OggOpus

/-!
# Which pages make a physical stream

Pages of one stream whose packets are within their limits make a valid
physical stream if and only if no page has the granule position that means
that no packet is completed on it.
-/

namespace Ratspeak

open Library Ogg

/-! ## The segments of a page -/

namespace VoicePlatform

variable (platform : VoicePlatform)

/-- Packets that are within their limits, after so many complete ones. -/
def WithinLimits : Nat → List (List UInt8) → Prop
  | _, [] => True
  | completed, packet :: rest =>
      packet.length ≤ platform.packetLimit completed ∧
        completed < maxPacketCount + 2 ∧ WithinLimits (completed + 1) rest

/-- A full segment makes the packet longer. -/
private theorem validateSegment_full {before completed : Nat} (onPage : Bool)
    (fits : before + 255 ≤ platform.packetLimit completed) :
    platform.validateSegment (before, completed, onPage) 255 =
      .ok (before + 255, completed, onPage) := by
  have short : ¬ platform.packetLimit completed < before +
      UInt8.toNat 255 := by
    exact Nat.not_lt.mpr fits
  unfold validateSegment
  dsimp only
  rw [if_neg short, if_neg (by decide)]
  rfl

/-- A shorter segment completes it. -/
private theorem validateSegment_last {before completed : Nat}
    {length : UInt8} (onPage : Bool) (short : length.toNat < 255)
    (fits : before + length.toNat ≤ platform.packetLimit completed)
    (few : completed < maxPacketCount + 2) :
    platform.validateSegment (before, completed, onPage) length =
      .ok (0, completed + 1, true) := by
  have isLast : length < 255 :=
    UInt8.lt_iff_toNat_lt.mpr short
  unfold validateSegment
  dsimp only
  rw [if_neg (Nat.not_lt.mpr fits), if_pos isLast, if_neg (Nat.not_lt.mpr few)]

private theorem validate_replicate {completed : Nat} {onPage : Bool}
    (count : Nat) {before : Nat}
    (fits : before + 255 * count ≤ platform.packetLimit completed) :
    (List.replicate count 255).foldlM platform.validateSegment
        (before, completed, onPage) =
      .ok (before + 255 * count, completed, onPage) := by
  induction count generalizing before with
  | zero => rfl
  | succ count ih =>
      have more : before + 255 + 255 * count = before + 255 * (count + 1) := by
        rw [Nat.mul_succ, Nat.add_assoc, Nat.add_comm 255]
      rw [← more] at fits ⊢
      have fitsOne : before + 255 ≤ platform.packetLimit completed :=
        Nat.le_trans (Nat.le_add_right _ _) fits
      have step := @validateSegment_full platform before completed onPage fitsOne
      rw [List.replicate_succ, List.foldlM_cons, step]
      exact ih fits

/-- The segments of a packet complete it. -/
private theorem validate_lacing {completed : Nat} {onPage : Bool} {packet : List UInt8}
    (fits : packet.length ≤ platform.packetLimit completed)
    (few : completed < maxPacketCount + 2) :
    (lacing packet).foldlM platform.validateSegment
        (0, completed, onPage) = .ok (0, completed + 1, true) := by
  have isByte : (UInt8.ofNat (packet.length % 255)).toNat =
      packet.length % 255 :=
    UInt8.toNat_ofNat_of_lt' (show packet.length % 255 < 256 by omega)
  have first := @validate_replicate platform completed onPage (packet.length / 255) 0 (by omega)
  have last := @validateSegment_last platform
    (0 + 255 * (packet.length / 255)) completed
    (UInt8.ofNat (packet.length % 255)) onPage (by omega) (by omega) few
  rw [lacing, List.foldlM_append, first]
  exact (congrArg (· >>= pure) last).trans rfl

/-- The segments of a page complete all its packets. -/
theorem validate_segments {packets : List (List UInt8)} {completed : Nat}
    {onPage : Bool} (within : platform.WithinLimits completed packets) :
    (packets.flatMap lacing).foldlM platform.validateSegment
        (0, completed, onPage) =
      .ok (0, completed + packets.length, onPage || !packets.isEmpty) := by
  induction packets generalizing completed onPage with
  | nil =>
      rw [List.flatMap_nil, List.foldlM_nil, List.isEmpty_nil]
      simp
      rfl
  | cons packet rest ih =>
      obtain ⟨fits, few, others⟩ := within
      rw [List.flatMap_cons, List.foldlM_append, platform.validate_lacing fits few]
      refine (ih others).trans ?_
      simp [Nat.add_assoc, Nat.add_comm 1]

/-! ## One page -/

/-- A page that may come next in a stream. -/
structure Follows (stream : PhysicalStream) (page : Page) : Prop where
  whole : stream.partialPacketBytes = 0
  running : stream.sawEos = false
  fits : page.Fits
  first : page.first = true ↔ stream.pageCount = 0
  serial : stream.pageCount ≠ 0 → stream.serial = some page.serial
  sequence : page.sequence = stream.expectedSequence
  begins : stream.pageCount = 0 → stream.expectedSequence = 0
  countable : stream.expectedSequence + 1 < 2 ^ 32
  packets : page.packets ≠ []
  within : platform.WithinLimits stream.completedPackets page.packets

/-- The stream after a page. -/
def afterPage (stream : PhysicalStream) (page : Page) : PhysicalStream where
  serial := some page.serial
  expectedSequence := stream.expectedSequence + 1
  pageCount := stream.pageCount + 1
  sawEos := page.last
  partialPacketBytes := 0
  completedPackets := stream.completedPackets + page.packets.length

theorem validatePage_encode {stream : PhysicalStream} {page : Page}
    (follows : platform.Follows stream page) (rest : List UInt8) :
    platform.validatePage stream (page.encode ++ rest) =
      if page.granule = 2 ^ 64 - 1 then
        .error "Voice message Ogg completed-packet granule is invalid"
      else .ok (afterPage stream page, rest) := by
  obtain ⟨crc, isEncoded⟩ : ∃ crc, page.encode =
      page.header crc ++ page.lacing ++ page.body :=
    ⟨_, rfl⟩
  have whole : page.encode ++ rest =
      page.header crc ++ (page.lacing ++ (page.body ++ rest)) := by
    rw [isEncoded, List.append_assoc, List.append_assoc]
  have isHeader : (page.encode ++ rest).take 27 = page.header crc := by
    rw [whole]
    exact List.take_left' (page.length_header crc)
  have isRest : (page.encode ++ rest).drop 27 =
      page.lacing ++ (page.body ++ rest) := by
    rw [whole]
    exact List.drop_left' (page.length_header crc)
  have long : ¬ (page.encode ++ rest).length < 27 := by
    rw [whole, List.length_append, page.length_header]
    omega
  have segmentCount : (UInt8.ofNat page.lacing.length).toNat =
      page.lacing.length :=
    UInt8.toNat_ofNat_of_lt' (Nat.lt_succ_of_le follows.fits.lacing)
  have isSegments : (page.lacing ++ (page.body ++ rest)).take
      page.lacing.length = page.lacing :=
    List.take_left
  have isBody : (page.lacing ++ (page.body ++ rest)).drop
      page.lacing.length = page.body ++ rest :=
    List.drop_left
  have granule : ofLittleEndian (littleEndian 8 page.granule) =
      page.granule :=
    ofLittleEndian_littleEndian follows.fits.granule
  have serial : ofLittleEndian (littleEndian 4 page.serial) = page.serial :=
    ofLittleEndian_littleEndian follows.fits.serial
  have sequence : ofLittleEndian (littleEndian 4 page.sequence) =
      page.sequence :=
    ofLittleEndian_littleEndian follows.fits.sequence
  unfold validatePage
  dsimp only
  rw [isHeader, isRest, page.header_magic, page.header_version,
    page.header_flags, page.header_granule, page.header_serial,
    page.header_sequence, page.header_segments, segmentCount, isSegments,
    isBody, granule, serial, sequence, page.flags_continued,
    page.flags_unused, follows.whole, page.sum_page_lacing]
  have begins : ¬ (decide (stream.pageCount = 0) &&
      (decide (page.flags &&& 2 = 0) || decide (page.sequence ≠ 0))) =
        true := by
    intro refused
    rw [Bool.and_eq_true, Bool.or_eq_true, decide_eq_true_eq,
      decide_eq_true_eq, decide_eq_true_eq] at refused
    rcases refused.2 with notFirst | nonzero
    · have isFirst := follows.first.mpr refused.1
      rw [page.flags_first.mp notFirst] at isFirst
      cases isFirst
    · exact nonzero (follows.sequence.trans (follows.begins refused.1))
  have chained : ¬ (decide (stream.pageCount ≠ 0) &&
      (decide (page.flags &&& 2 ≠ 0) ||
        decide (stream.serial ≠ some page.serial))) = true := by
    intro refused
    rw [Bool.and_eq_true, Bool.or_eq_true, decide_eq_true_eq,
      decide_eq_true_eq, decide_eq_true_eq] at refused
    rcases refused.2 with isFirst | other
    · have notFirst : page.first = false :=
        eq_false_of_ne_true fun first =>
          refused.1 (follows.first.mp first)
      exact isFirst (page.flags_first.mpr notFirst)
    · exact other (follows.serial refused.1)
  have table : ¬ (page.lacing ++ (page.body ++ rest)).length <
      page.lacing.length := by
    rw [List.length_append]
    omega
  have longBody : ¬ (page.body ++ rest).length < page.body.length := by
    rw [List.length_append]
    omega
  have countable : ¬ 2 ^ 32 ≤ stream.expectedSequence + 1 :=
    Nat.not_le.mpr follows.countable
  have isSerial :
      (if stream.pageCount = 0 then some page.serial else stream.serial) =
        some page.serial := by
    split
    · rfl
    · rename_i later
      exact follows.serial later
  have isLast : decide (page.flags &&& 4 ≠ 0) = page.last := by
    cases last : page.last with
    | false =>
        rw [page.flags_last.mpr last]
        rfl
    | true =>
        apply decide_eq_true
        intro none
        rw [page.flags_last.mp none] at last
        cases last
  have complete := @validate_segments platform page.packets
    stream.completedPackets false follows.within
  have onPage : (false || !page.packets.isEmpty) = true := by
    rw [Bool.false_or, Bool.not_eq_true', List.isEmpty_eq_false_iff]
    exact follows.packets
  rw [onPage] at complete
  rw [if_neg long, if_neg (by simp), if_neg (by simp), if_neg begins,
    if_neg chained, if_neg (not_not.mpr follows.sequence),
    if_neg countable, if_neg table, Page.lacing, complete]
  simp only [bind, Except.bind, Bool.not_true, Bool.false_and,
    Bool.false_eq_true, if_false, Bool.true_and, decide_eq_true_eq]
  rw [if_neg longBody, isSerial, isLast, List.drop_left]
  rfl

/-! ## All pages -/

/-- Each page may come next after those before it. -/
def FollowAll : PhysicalStream → List Page → Prop
  | _, [] => True
  | stream, page :: rest =>
      platform.Follows stream page ∧ FollowAll (afterPage stream page) rest

theorem header_ne_nil (page : Page) (rest : List UInt8) :
    (page.encode ++ rest).isEmpty = false := by
  rw [List.isEmpty_eq_false_iff]
  intro none
  have length := congrArg List.length none
  rw [List.length_append, Page.encode, List.length_append,
    List.length_append, Page.length_header] at length
  simp at length

/-- Some page says that no packet is completed on it. -/
def unfinished (pages : List Page) : Bool :=
  pages.any fun page => page.granule = 2 ^ 64 - 1

theorem validatePages_encode {pages : List Page} {stream : PhysicalStream}
    {left : Nat} (follow : platform.FollowAll stream pages) (enough : pages.length ≤ left) :
    platform.validatePages left stream (encode pages) =
      if unfinished pages then
        .error "Voice message Ogg completed-packet granule is invalid"
      else .ok (pages.foldl afterPage stream) := by
  induction pages generalizing stream left with
  | nil => cases left <;> rfl
  | cons page rest ih =>
      obtain ⟨follows, others⟩ := follow
      cases left with
      | zero => cases enough
      | succ left =>
          have next := ih others (Nat.le_of_succ_le_succ enough)
          have isEncoded : encode (page :: rest) =
              page.encode ++ encode rest :=
            rfl
          rw [validatePages, isEncoded, header_ne_nil, follows.running,
            platform.validatePage_encode follows]
          by_cases isMax : page.granule = 2 ^ 64 - 1
          · have isUnfinished : unfinished (page :: rest) = true := by
              simp [unfinished, isMax]
            rw [if_pos isMax, if_pos isUnfinished]
            rfl
          · have same : unfinished (page :: rest) = unfinished rest := by
              rw [unfinished, List.any_cons, decide_eq_false isMax, Bool.false_or]
              rfl
            rw [if_neg isMax, same]
            exact next

/-- Where the packets of writes that are to come go. -/
structure Awaits (stream : PhysicalStream) (serial : Nat) (first : Bool)
    (sequence : Nat) (held : List (List UInt8)) (writes : List Write) :
    Prop where
  whole : stream.partialPacketBytes = 0
  running : stream.sawEos = false
  first : first = true ↔ stream.pageCount = 0
  serial : stream.pageCount ≠ 0 → stream.serial = some serial
  sequence : sequence = stream.expectedSequence
  begins : stream.pageCount = 0 → stream.expectedSequence = 0
  countable : stream.expectedSequence + writes.length < 2 ^ 32
  within : platform.WithinLimits stream.completedPackets (held ++ writes.map Write.data)

theorem withinLimits_append {completed : Nat} {first second : List (List UInt8)} :
    platform.WithinLimits completed (first ++ second) ↔
      platform.WithinLimits completed first ∧
        platform.WithinLimits (completed + first.length) second := by
  induction first generalizing completed with
  | nil => simp [WithinLimits]
  | cons packet rest ih =>
      simp only [List.cons_append, WithinLimits, ih,
        List.length_cons, and_assoc, Nat.add_assoc, Nat.add_comm 1]

variable {platform}

/-- The page that ends with the next packet follows. -/
theorem Awaits.follows {stream : PhysicalStream} {serial : Nat}
    {first : Bool} {sequence : Nat} {held : List (List UInt8)}
    {write : Write} {rest : List Write}
    (awaits : platform.Awaits stream serial first sequence held (write :: rest))
    {page : Page} (fits : page.Fits) (isSerial : page.serial = serial)
    (isFirst : page.first = first) (isSequence : page.sequence = sequence)
    (packets : page.packets = held ++ [write.data]) :
    platform.Follows stream page where
  whole := awaits.whole
  running := awaits.running
  fits := fits
  first := by
    rw [isFirst]
    exact awaits.first
  serial := by
    rw [isSerial]
    exact awaits.serial
  sequence := isSequence.trans awaits.sequence
  begins := awaits.begins
  countable := by
    have countable := awaits.countable
    rw [List.length_cons] at countable
    omega
  packets := by
    rw [packets]
    simp
  within := by
    have within := awaits.within
    rw [List.map_cons, List.append_cons, withinLimits_append] at within
    rw [packets]
    exact within.1

/-- The writes after a page await an empty one. -/
theorem Awaits.afterPage {stream : PhysicalStream} {serial : Nat}
    {first : Bool} {sequence : Nat} {held : List (List UInt8)}
    {write : Write} {rest : List Write}
    (awaits : platform.Awaits stream serial first sequence held (write :: rest))
    {page : Page} (isSerial : page.serial = serial) (notLast : page.last = false)
    (packets : page.packets = held ++ [write.data]) :
    platform.Awaits (VoicePlatform.afterPage stream page) serial false
      (sequence + 1) [] rest where
  whole := rfl
  running := notLast
  first := by
    simp [VoicePlatform.afterPage]
  serial _ := congrArg some isSerial
  sequence := congrArg (· + 1) awaits.sequence
  begins none := by
    simp [VoicePlatform.afterPage] at none
  countable := by
    have countable := awaits.countable
    rw [List.length_cons] at countable
    dsimp only [VoicePlatform.afterPage]
    omega
  within := by
    have within := awaits.within
    rw [List.map_cons, List.append_cons, withinLimits_append, ← packets] at within
    exact within.2

/-- The pages of a stream follow each other, and what is known at its end. -/
theorem followAll_pagesFrom {writes : List Write} {stream : PhysicalStream}
    {serial : Nat} {first : Bool} {sequence : Nat} {held : List (List UInt8)}
    (awaits : platform.Awaits stream serial first sequence held writes)
    (serials : ∀ write ∈ writes, write.serial = serial) (ends : EndsOnce writes)
    (fits : ∀ page ∈ pagesFrom first sequence held writes, page.Fits) :
    platform.FollowAll stream (pagesFrom first sequence held writes) ∧
      let final := (pagesFrom first sequence held writes).foldl VoicePlatform.afterPage stream
      final.sawEos = true ∧ final.partialPacketBytes = 0 ∧
        final.serial = some serial ∧
        final.completedPackets =
          stream.completedPackets + held.length + writes.length := by
  induction writes generalizing stream first sequence held with
  | nil => exact ends.elim
  | cons write rest ih =>
      have isSerial := serials write List.mem_cons_self
      have others : ∀ other ∈ rest, other.serial = serial :=
        fun other member => serials other (List.mem_cons_of_mem _ member)
      rw [pagesFrom] at fits ⊢
      rcases ends.tail with ⟨isLast, isEnd⟩ | ⟨notEnd, endsLater⟩
      · subst isLast
        rw [isEnd] at fits ⊢
        have pageFits := fits _ List.mem_cons_self
        refine ⟨⟨awaits.follows pageFits isSerial rfl rfl rfl, trivial⟩,
          rfl, rfl, congrArg some isSerial, ?_⟩
        simp [VoicePlatform.afterPage, pageWith, pagesFrom, Nat.add_assoc]
      · cases isEnd : write.endInfo with
        | normalPacket =>
            rw [isEnd] at fits
            have next : platform.Awaits stream serial first sequence
                (held ++ [write.data]) rest :=
              { awaits with
                countable := by
                  have countable := awaits.countable
                  rw [List.length_cons] at countable
                  omega
                within := by
                  have within := awaits.within
                  rwa [List.map_cons, List.append_cons] at within }
            have run := ih next others endsLater fits
            rw [List.length_append] at run
            simpa [Nat.add_assoc, Nat.add_comm 1] using run
        | endPage =>
            rw [isEnd] at fits
            have pageFits := fits _ List.mem_cons_self
            have next := @Awaits.afterPage platform stream serial first
              sequence held write rest awaits
              (pageWith first sequence held write false) isSerial rfl rfl
            obtain ⟨follow, ended, whole, same, completed⟩ :=
              ih next others endsLater fun page member =>
                fits page (List.mem_cons_of_mem _ member)
            refine ⟨⟨awaits.follows pageFits isSerial rfl rfl rfl, follow⟩,
              ended, whole, same, completed.trans ?_⟩
            simp [VoicePlatform.afterPage, pageWith]
            omega
        | endStream => exact (notEnd isEnd).elim

theorem length_encode_pagesOf {serial : Nat} {writes : List Write}
    (complete : Complete serial writes) :
    27 ≤ (encode (pagesOf writes)).length := by
  obtain ⟨page, rest, isPages⟩ := List.exists_cons_of_ne_nil
    (pagesFrom_ne_nil complete.ends : pagesOf writes ≠ [])
  rw [pagesOf, isPages, encode, List.flatMap_cons, List.length_append, Page.encode,
    List.length_append, List.length_append, Page.length_header]
  omega

/-- The pages of a stream are a valid physical stream, unless one of them says
that no packet is completed on it. -/
theorem validatePhysicalStream_pagesOf {serial : Nat} {writes : List Write}
    (complete : Complete serial writes)
    (within : platform.WithinLimits 0 (writes.map Write.data))
    (atLeast : 3 ≤ writes.length) (atMost : writes.length ≤ maxPageCount)
    (size : (encode (pagesOf writes)).length ≤ voiceMemoMaxAudioBytes) :
    platform.validatePhysicalStream (encode (pagesOf writes)) =
      if unfinished (pagesOf writes) then
        .error "Voice message Ogg completed-packet granule is invalid"
      else .ok serial := by
  have awaits : platform.Awaits
      { serial := none
        expectedSequence := 0
        pageCount := 0
        sawEos := false
        partialPacketBytes := 0
        completedPackets := 0 } serial true 0 [] writes :=
    { whole := rfl
      running := rfl
      first := by simp
      serial := fun later => (later rfl).elim
      sequence := rfl
      begins := fun _ => rfl
      countable := by
        rw [maxPageCount, maxPacketCount, voiceMemoMaxDurationMs] at atMost
        dsimp only
        omega
      within := within }
  obtain ⟨follow, ended, whole, same, completed⟩ :=
    followAll_pagesFrom awaits complete.serial complete.ends complete.fits
  have run := platform.validatePages_encode follow
    (Nat.le_trans (length_pagesFrom_le true 0 [] writes) atMost)
  have sized : ¬ (decide ((encode (pagesOf writes)).length < 27) ||
      decide (voiceMemoMaxAudioBytes <
        (encode (pagesOf writes)).length)) = true := by
    rw [Bool.or_eq_true, decide_eq_true_eq, decide_eq_true_eq]
    have long := length_encode_pagesOf complete
    omega
  have checked : platform.validatePages maxPageCount
      { serial := none
        expectedSequence := 0
        pageCount := 0
        sawEos := false
        partialPacketBytes := 0
        completedPackets := 0 } (encode (pagesOf writes)) = _ :=
    run
  rw [validatePhysicalStream, if_neg sized, checked]
  have enough : ¬ 0 + ([] : List (List UInt8)).length + writes.length <
      3 := by
    rw [List.length_nil]
    omega
  rw [pagesOf]
  split
  · rfl
  · simp only [bind, Except.bind]
    rw [ended, whole, same, completed, decide_eq_false enough]
    rfl

end VoicePlatform

end Ratspeak
