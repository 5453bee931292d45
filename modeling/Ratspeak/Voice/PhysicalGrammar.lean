import Ratspeak.Library.Attempts
import Ratspeak.Library.OggPages
import Ratspeak.Voice.OggOpus

/-!
# The grammar of a physical stream

What the validation of a physical stream accepts, as a grammar: whole pages of
one serial, numbered from zero, with the flags, the lacing and the granule
positions where they belong.  The checksum of a page is not looked at.

A page is accepted or not by what the pages before it come to, so the grammar
is first stated page by page along the stream, and then over the whole of it.
-/

namespace Ratspeak

open Library Ogg

namespace VoicePlatform

variable (platform : VoicePlatform)

/-! ## One page -/

/-- The page is accepted after what came before, and leads to `next`. -/
structure Steps (stream : PhysicalStream) (page : RawPage)
    (next : PhysicalStream) : Prop where
  continued : page.continued = true ↔ stream.partialPacketBytes ≠ 0
  begins : stream.pageCount = 0 → page.first = true ∧ page.sequence.toNat = 0
  later : stream.pageCount ≠ 0 → page.first = false ∧ stream.serial = some page.serial.toNat
  sequence : page.sequence.toNat = stream.expectedSequence
  countable : stream.expectedSequence + 1 < 2 ^ 32
  segments : ∃ onPage,
    page.segments.foldlM platform.validateSegment
        (stream.partialPacketBytes, stream.completedPackets, false) =
      .ok (next.partialPacketBytes, next.completedPackets, onPage) ∧
    (page.granule.toNat = 2 ^ 64 - 1 ↔ onPage = false)
  next : next =
    { serial :=
        if stream.pageCount = 0 then some page.serial.toNat
        else stream.serial
      expectedSequence := stream.expectedSequence + 1
      pageCount := stream.pageCount + 1
      sawEos := page.last
      partialPacketBytes := next.partialPacketBytes
      completedPackets := next.completedPackets }

/-- The validation of a page, in terms of its fields. -/
private theorem validatePage_eq (stream : PhysicalStream) (page : RawPage) (rest : List UInt8) :
    platform.validatePage stream (page.encode ++ rest) =
      if ¬(page.continued = true ↔ stream.partialPacketBytes ≠ 0) then
        .error "Voice message Ogg continuation flag is invalid"
      else if stream.pageCount = 0 ∧
          (page.first = false ∨ page.sequence.toNat ≠ 0) then
        .error "Voice message Ogg stream does not begin correctly"
      else if stream.pageCount ≠ 0 ∧
          (page.first = true ∨ stream.serial ≠ some page.serial.toNat) then
        .error "Voice message contains chained or multiplexed Ogg streams"
      else if page.sequence.toNat ≠ stream.expectedSequence then
        .error "Voice message Ogg page sequence is invalid"
      else if 2 ^ 32 ≤ stream.expectedSequence + 1 then
        .error "Voice message Ogg page sequence overflows"
      else (do
        let (partialPacketBytes, completedPackets, completedOnPage) ←
          page.segments.foldlM platform.validateSegment
            (stream.partialPacketBytes, stream.completedPackets, false)
        if completedOnPage = false ∧ page.granule.toNat ≠ 2 ^ 64 - 1 then
          .error "Voice message Ogg continuation page granule is invalid"
        else if completedOnPage = true ∧
            page.granule.toNat = 2 ^ 64 - 1 then
          .error "Voice message Ogg completed-packet granule is invalid"
        else
          .ok
            ({ serial :=
                if stream.pageCount = 0 then some page.serial.toNat
                else stream.serial
               expectedSequence := stream.expectedSequence + 1
               pageCount := stream.pageCount + 1
               sawEos := page.last
               partialPacketBytes
               completedPackets }, rest)) := by
  have long : ¬(page.encode ++ rest).length < 27 := by
    have least := page.length_encode
    rw [List.length_append]
    omega
  have table : ¬(page.segments ++ (page.body ++ rest)).length <
      page.segments.length := by
    rw [List.length_append]
    omega
  have body : ¬(page.body ++ rest).length <
      (page.segments.map UInt8.toNat).sum := by
    rw [List.length_append, page.whole]
    omega
  have continued : (page.flags &&& 0x01 ≠ 0) =
      (page.continued = true) :=
    propext page.flags_continued
  have first : (page.flags &&& 0x02 ≠ 0) = (page.first = true) :=
    propext page.flags_first
  have notFirst : (page.flags &&& 0x02 = 0) = (page.first = false) := by
    rw [← Bool.not_eq_true, ← first, not_not]
  have last : decide (page.flags &&& 0x04 ≠ 0) = page.last := by
    rw [Bool.eq_iff_iff, decide_eq_true_eq]
    exact page.flags_last
  unfold validatePage
  dsimp only
  rw [page.take_encode, page.drop_encode, page.header_magic,
    page.header_version, page.header_flags, page.header_granule,
    page.header_serial, page.header_sequence, page.header_segments,
    page.take_table, page.drop_table, page.flags_unused, if_neg long,
    if_neg (by simp), if_neg table, last]
  simp only [continued, first, notFirst, Bool.and_eq_true,
    Bool.or_eq_true, decide_eq_true_eq, Bool.not_eq_true', body,
    if_false, page.drop_body, ne_eq, eq_iff_iff]

/-- A page that the bytes begin with is accepted exactly if it may come
next. -/
theorem validatePage_eq_ok_iff {stream next : PhysicalStream}
    {page : RawPage} {rest after : List UInt8} :
    platform.validatePage stream (page.encode ++ rest) =
        .ok (next, after) ↔
      platform.Steps stream page next ∧ after = rest := by
  rw [validatePage_eq]
  constructor
  · intro accepted
    obtain ⟨continued, accepted⟩ := ok_of_unless accepted
    obtain ⟨begins, accepted⟩ := ok_of_unless accepted
    obtain ⟨later, accepted⟩ := ok_of_unless accepted
    obtain ⟨sequence, accepted⟩ := ok_of_unless accepted
    obtain ⟨countable, accepted⟩ := ok_of_unless accepted
    obtain ⟨⟨unfinished, completed, onPage⟩, scanned, accepted⟩ :=
      bind_eq_ok accepted
    obtain ⟨continuation, accepted⟩ := ok_of_unless accepted
    obtain ⟨completion, accepted⟩ := ok_of_unless accepted
    cases accepted
    refine ⟨⟨not_not.mp continued, ?_, ?_, not_not.mp sequence,
      Nat.lt_of_not_le countable, ⟨onPage, scanned, ?_⟩, rfl⟩, rfl⟩
    · intro none
      rw [not_and, not_or, not_not, Bool.not_eq_false] at begins
      exact begins none
    · intro some_
      rw [not_and, not_or, not_not, Bool.not_eq_true] at later
      exact later some_
    · cases onPage with
      | false => simpa using continuation
      | true => simpa using completion
  · rintro ⟨steps, rfl⟩
    have begins : ¬(stream.pageCount = 0 ∧
        (page.first = false ∨ page.sequence.toNat ≠ 0)) := by
      rintro ⟨none, notFirst | nonzero⟩
      · rw [(steps.begins none).1] at notFirst
        cases notFirst
      · exact nonzero (steps.begins none).2
    have later : ¬(stream.pageCount ≠ 0 ∧
        (page.first = true ∨
          stream.serial ≠ some page.serial.toNat)) := by
      rintro ⟨some_, isFirst | other⟩
      · rw [(steps.later some_).1] at isFirst
        cases isFirst
      · exact other (steps.later some_).2
    obtain ⟨onPage, scanned, granule⟩ := steps.segments
    rw [if_neg (not_not.mpr steps.continued), if_neg begins,
      if_neg later, if_neg (not_not.mpr steps.sequence),
      if_neg (Nat.not_le.mpr steps.countable), scanned, ok_bind]
    dsimp only
    have continuation : ¬(onPage = false ∧
        page.granule.toNat ≠ 2 ^ 64 - 1) := by
      rintro ⟨none, other⟩
      exact other (granule.mpr none)
    have completion : ¬(onPage = true ∧
        page.granule.toNat = 2 ^ 64 - 1) := by
      rintro ⟨isOn, same⟩
      rw [granule.mp same] at isOn
      cases isOn
    rw [if_neg continuation, if_neg completion, ← steps.next]

/-- Bytes whose front is accepted begin with a whole page. -/
theorem exists_page_of_validatePage {stream : PhysicalStream}
    {data : List UInt8} {result : PhysicalStream × List UInt8}
    (accepted : platform.validatePage stream data = .ok result) :
    ∃ page : RawPage, ∃ rest, data = page.encode ++ rest := by
  unfold validatePage at accepted
  dsimp only at accepted
  obtain ⟨long, accepted⟩ := ok_of_unless accepted
  obtain ⟨header, accepted⟩ := ok_of_unless accepted
  obtain ⟨_, accepted⟩ := ok_of_unless accepted
  obtain ⟨_, accepted⟩ := ok_of_unless accepted
  obtain ⟨_, accepted⟩ := ok_of_unless accepted
  obtain ⟨_, accepted⟩ := ok_of_unless accepted
  obtain ⟨_, accepted⟩ := ok_of_unless accepted
  obtain ⟨table, accepted⟩ := ok_of_unless accepted
  obtain ⟨_, _, accepted⟩ := bind_eq_ok accepted
  obtain ⟨_, accepted⟩ := ok_of_unless accepted
  obtain ⟨_, accepted⟩ := ok_of_unless accepted
  obtain ⟨body, _⟩ := ok_of_unless accepted
  rw [Bool.or_eq_true, Bool.or_eq_true, decide_eq_true_eq,
    decide_eq_true_eq, decide_eq_true_eq, not_or, not_or, not_not,
    not_not, not_not] at header
  exact exists_rawPage (Nat.le_of_not_lt long) rfl header.1.1 header.1.2
    header.2 (Nat.le_of_not_lt table) (Nat.le_of_not_lt body)

/-! ## The packets of a page -/

/-- The sizes of packets are within their limits, after so many complete
ones. -/
def SizesFit : Nat → List Nat → Prop
  | _, [] => True
  | completed, size :: rest =>
      size ≤ platform.packetLimit completed ∧ SizesFit (completed + 1) rest

theorem sizesFit_append {completed : Nat} {first second : List Nat} :
    platform.SizesFit completed (first ++ second) ↔
      platform.SizesFit completed first ∧
        platform.SizesFit (completed + first.length) second := by
  induction first generalizing completed with
  | nil => simp [SizesFit]
  | cons size rest ih =>
      simp only [List.cons_append, SizesFit, ih,
        List.length_cons, and_assoc, Nat.add_assoc, Nat.add_comm 1]

/-- Packets that are cut from lacing tables are within their limits, and so
is what is left unfinished. -/
structure CutFits (completed : Nat) (cut : List Nat × Nat) : Prop where
  sizes : platform.SizesFit completed cut.1
  unfinished : cut.2 ≤ platform.packetLimit (completed + cut.1.length)
  count : completed + cut.1.length ≤ maxPacketCount + 2

/-- The scan of a lacing table comes through exactly if the packets that it
cuts are within their limits. -/
theorem foldlM_validateSegment_eq_ok_iff {segments : List UInt8}
    {unfinished completed : Nat} {onPage : Bool} {result : Lacing}
    (fits : unfinished ≤ platform.packetLimit completed)
    (few : completed ≤ maxPacketCount + 2) :
    segments.foldlM platform.validateSegment
        (unfinished, completed, onPage) = .ok result ↔
      platform.CutFits completed (cutFrom unfinished segments) ∧
        result =
          ((cutFrom unfinished segments).2,
            completed + (cutFrom unfinished segments).1.length,
            onPage || !(cutFrom unfinished segments).1.isEmpty) := by
  induction segments generalizing unfinished completed onPage with
  | nil =>
      rw [List.foldlM_nil, cutFrom]
      have here : platform.CutFits completed ([], unfinished) :=
        ⟨trivial, fits, few⟩
      simp only [here, true_and, List.length_nil, Nat.add_zero,
        List.isEmpty_nil, Bool.not_true, Bool.or_false]
      constructor
      · intro same
        exact (Except.ok.inj same).symm
      · rintro rfl
        rfl
  | cons length rest ih =>
      rw [List.foldlM_cons, validateSegment, cutFrom]
      dsimp only
      by_cases large : platform.packetLimit completed < unfinished + length.toNat
      · rw [if_pos large, error_bind]
        have refused : ¬platform.CutFits completed
            (if length < 255 then
              ((unfinished + length.toNat) :: (cutFrom 0 rest).1, (cutFrom 0 rest).2)
            else cutFrom (unfinished + length.toNat) rest) := by
          intro cut
          split at cut
          next =>
            exact Nat.not_le.mpr large cut.sizes.1
          next =>
            rcases unfinished_le_cutFrom (unfinished + length.toNat) rest
              with ⟨size, others, sizes, more⟩ | ⟨none, more⟩
            · have fitting := cut.sizes
              rw [sizes] at fitting
              exact Nat.not_le.mpr large (Nat.le_trans more fitting.1)
            · have fitting := cut.unfinished
              rw [none] at fitting
              exact Nat.not_le.mpr large (Nat.le_trans more fitting)
        simp only [refused, false_and, reduceCtorEq]
      · rw [if_neg large]
        by_cases short : length < 255
        · rw [if_pos short, if_pos short]
          by_cases many : maxPacketCount + 2 < completed + 1
          · rw [if_pos many, error_bind]
            have refused : ¬platform.CutFits completed
                ((unfinished + length.toNat) :: (cutFrom 0 rest).1,
                  (cutFrom 0 rest).2) := by
              intro cut
              have count := cut.count
              rw [List.length_cons] at count
              omega
            simp only [refused, false_and, reduceCtorEq]
          · rw [if_neg many, ok_bind,
              ih (Nat.zero_le _) (Nat.le_of_not_lt many)]
            have same : completed + 1 + (cutFrom 0 rest).1.length =
                completed +
                  ((unfinished + length.toNat) ::
                    (cutFrom 0 rest).1).length := by
              rw [List.length_cons]
              omega
            have cut : platform.CutFits (completed + 1) (cutFrom 0 rest) ↔
                platform.CutFits completed
                  ((unfinished + length.toNat) :: (cutFrom 0 rest).1,
                    (cutFrom 0 rest).2) := by
              constructor
              · intro later
                refine ⟨⟨Nat.le_of_not_lt large, later.sizes⟩, ?_, ?_⟩
                · rw [← same]
                  exact later.unfinished
                · rw [← same]
                  exact later.count
              · intro whole
                refine ⟨whole.sizes.2, ?_, ?_⟩
                · rw [same]
                  exact whole.unfinished
                · rw [same]
                  exact whole.count
            rw [cut, same]
            simp
        · rw [if_neg short, if_neg short, ok_bind, ih (Nat.le_of_not_lt large) few]

/-! ## Page after page -/

/-- What the validation knows after these pages. -/
def streamAfter (pages : List RawPage) : PhysicalStream :=
  let cut := cutFrom 0 (lacingOf pages)
  { serial := pages.head?.map fun page => page.serial.toNat
    expectedSequence := pages.length
    pageCount := pages.length
    sawEos := pages.getLast?.any RawPage.last
    partialPacketBytes := cut.2
    completedPackets := cut.1.length }

/-- The page may come next after those before it. -/
structure PageFits (front : List RawPage) (page : RawPage) : Prop where
  serial : ∀ first ∈ front.head?, first.serial = page.serial
  sequence : page.sequence.toNat = front.length
  first : page.first = true ↔ front = []
  continued : page.continued = true ↔ (lacingOf front).getLast? = some 255
  granule : page.granule.toNat = 2 ^ 64 - 1 ↔ ∀ length ∈ page.segments, length = 255
  packets : platform.CutFits 0 (cutFrom 0 (lacingOf (front ++ [page])))

/-- So far the packets are within their limits, and the pages are few. -/
structure Within (pages : List RawPage) : Prop where
  packets : platform.CutFits 0 (cutFrom 0 (lacingOf pages))
  countable : pages.length + 1 < 2 ^ 32

theorem lacingOf_concat (front : List RawPage) (page : RawPage) :
    lacingOf (front ++ [page]) = lacingOf front ++ page.segments := by
  rw [lacingOf, List.flatMap_append, List.flatMap_singleton, lacingOf]

private theorem cut_concat (front : List RawPage) (page : RawPage) :
    cutFrom 0 (lacingOf (front ++ [page])) =
      ((cutFrom 0 (lacingOf front)).1 ++
          (cutFrom (cutFrom 0 (lacingOf front)).2 page.segments).1,
        (cutFrom (cutFrom 0 (lacingOf front)).2 page.segments).2) := by
  rw [lacingOf_concat, cutFrom_append]

/-- What a page adds is within its limits if the whole is. -/
private theorem cutFits_concat {front : List RawPage} {page : RawPage}
    (within : platform.CutFits 0 (cutFrom 0 (lacingOf front))) :
    platform.CutFits 0 (cutFrom 0 (lacingOf (front ++ [page]))) ↔
      platform.CutFits (cutFrom 0 (lacingOf front)).1.length
        (cutFrom (cutFrom 0 (lacingOf front)).2 page.segments) := by
  rw [cut_concat]
  constructor
  · intro whole
    have sizes := whole.sizes
    rw [sizesFit_append, Nat.zero_add] at sizes
    have unfinished := whole.unfinished
    have count := whole.count
    rw [Nat.zero_add, List.length_append] at unfinished count
    exact ⟨sizes.2, unfinished, count⟩
  · intro part
    constructor
    · rw [sizesFit_append, Nat.zero_add]
      exact ⟨within.sizes, part.sizes⟩
    · rw [Nat.zero_add, List.length_append]
      exact part.unfinished
    · rw [Nat.zero_add, List.length_append]
      exact part.count

private theorem serial_after (front : List RawPage) (page : RawPage) :
    (if (streamAfter front).pageCount = 0 then some page.serial.toNat
      else (streamAfter front).serial) =
        some (front.head?.getD page).serial.toNat := by
  cases front with
  | nil => rfl
  | cons first rest => rfl

private theorem streamAfter_concat (front : List RawPage) (page : RawPage) :
    streamAfter (front ++ [page]) =
      { serial := some (front.head?.getD page).serial.toNat
        expectedSequence := front.length + 1
        pageCount := front.length + 1
        sawEos := page.last
        partialPacketBytes :=
          (cutFrom (cutFrom 0 (lacingOf front)).2 page.segments).2
        completedPackets :=
          (cutFrom 0 (lacingOf front)).1.length +
            (cutFrom (cutFrom 0 (lacingOf front)).2
              page.segments).1.length } := by
  have head : (front ++ [page]).head? = some (front.head?.getD page) := by
    cases front with
    | nil => rfl
    | cons first rest => rfl
  simp only [streamAfter, cut_concat, head, List.length_append,
    List.length_singleton, List.getLast?_concat, Option.map_some,
    Option.any_some]

/-- A page is accepted after others exactly if it fits them. -/
theorem steps_streamAfter_iff {front : List RawPage} {page : RawPage}
    {next : PhysicalStream} (within : platform.Within front) :
    platform.Steps (streamAfter front) page next ↔
      platform.PageFits front page ∧
        next = streamAfter (front ++ [page]) := by
  have limits : (cutFrom 0 (lacingOf front)).2 ≤
      platform.packetLimit (cutFrom 0 (lacingOf front)).1.length := by
    have unfinished := within.packets.unfinished
    rw [Nat.zero_add] at unfinished
    exact unfinished
  have few : (cutFrom 0 (lacingOf front)).1.length ≤
      maxPacketCount + 2 := by
    have count := within.packets.count
    rw [Nat.zero_add] at count
    exact count
  have none_iff : front.length = 0 ↔ front = [] :=
    List.length_eq_zero_iff
  have onPage : ∀ cut : List Nat,
      (false || !cut.isEmpty) = false ↔ cut = [] := by
    intro cut
    rw [Bool.false_or, Bool.not_eq_false', List.isEmpty_iff]
  constructor
  · intro steps
    obtain ⟨isOn, scanned, granule⟩ := steps.segments
    obtain ⟨cut, result⟩ :=
      (platform.foldlM_validateSegment_eq_ok_iff limits few).mp scanned
    obtain ⟨unfinished, completed, on⟩ :
        next.partialPacketBytes =
            (cutFrom (cutFrom 0 (lacingOf front)).2 page.segments).2 ∧
          next.completedPackets =
            (cutFrom 0 (lacingOf front)).1.length +
              (cutFrom (cutFrom 0 (lacingOf front)).2 page.segments).1.length ∧
          isOn = (false || !(cutFrom (cutFrom 0 (lacingOf front)).2
            page.segments).1.isEmpty) := by
      simpa only [Prod.mk.injEq] using result
    constructor
    · constructor
      · intro first isFirst
        have some_ : front.length ≠ 0 := by
          intro none
          rw [none_iff.mp none] at isFirst
          cases isFirst
        have same := (steps.later some_).2
        simp only [streamAfter, Option.mem_def.mp isFirst,
          Option.map_some, Option.some.injEq] at same
        exact UInt32.toNat_inj.mp same
      · exact steps.sequence
      · constructor
        · intro isFirst
          by_contra some_
          have later := steps.later fun none => some_ (none_iff.mp none)
          rw [isFirst] at later
          cases later.1
        · intro none
          exact (steps.begins (none_iff.mpr none)).1
      · rw [← cutFrom_snd_ne_zero_iff]
        exact steps.continued
      · rw [granule, on, onPage, cutFrom_fst_eq_nil_iff]
      · rw [platform.cutFits_concat within.packets]
        exact cut
    · rw [steps.next, unfinished, completed, streamAfter_concat,
        serial_after]
      rfl
  · rintro ⟨fits, rfl⟩
    have cut := (platform.cutFits_concat within.packets).mp fits.packets
    have scanned :=
      (@foldlM_validateSegment_eq_ok_iff platform page.segments _ _ false
        _ limits few).mpr ⟨cut, rfl⟩
    constructor
    · rw [fits.continued, ← cutFrom_snd_ne_zero_iff]
      rfl
    · intro none
      refine ⟨fits.first.mpr (none_iff.mp none), ?_⟩
      rw [fits.sequence]
      exact none
    · intro some_
      cases front with
      | nil => exact absurd rfl some_
      | cons first rest =>
          constructor
          · rw [← Bool.not_eq_true, fits.first]
            exact List.cons_ne_nil first rest
          · have same := fits.serial first rfl
            rw [← same]
            rfl
    · exact fits.sequence
    · exact within.countable
    · refine ⟨false || !(cutFrom (cutFrom 0 (lacingOf front)).2
        page.segments).1.isEmpty, ?_, ?_⟩
      · rw [streamAfter_concat]
        exact scanned
      · rw [onPage, fits.granule, cutFrom_fst_eq_nil_iff]
    · rw [streamAfter_concat, serial_after]
      rfl

/-- Pages are accepted one after the other, after those in front. -/
def PagesFit : List RawPage → List RawPage → Prop
  | _, [] => True
  | front, page :: rest =>
      front.getLast?.any RawPage.last = false ∧
        platform.PageFits front page ∧ PagesFit (front ++ [page]) rest

theorem validatePages_eq_ok_iff {left : Nat} {front : List RawPage}
    {data : List UInt8} {final : PhysicalStream}
    (within : platform.CutFits 0 (cutFrom 0 (lacingOf front)))
    (countable : front.length + left + 1 < 2 ^ 32) :
    platform.validatePages left (streamAfter front) data = .ok final ↔
      ∃ pages, data = rawBytes pages ∧ pages.length ≤ left ∧
        platform.PagesFit front pages ∧
          final = streamAfter (front ++ pages) := by
  induction left generalizing front data with
  | zero =>
      rw [validatePages]
      constructor
      · intro accepted
        split at accepted
        next empty =>
          cases accepted
          refine ⟨[], List.isEmpty_iff.mp empty, Nat.le_refl _, trivial, ?_⟩
          rw [List.append_nil]
        next =>
          obtain ⟨_, impossible⟩ := ok_of_unless accepted
          cases impossible
      · rintro ⟨pages, rfl, few, _, rfl⟩
        have none := List.eq_nil_of_length_eq_zero (Nat.le_zero.mp few)
        subst none
        rw [List.append_nil]
        rfl
  | succ left ih =>
      have small : platform.Within front := ⟨within, by omega⟩
      rw [validatePages]
      constructor
      · intro accepted
        split at accepted
        next empty =>
          cases accepted
          refine ⟨[], List.isEmpty_iff.mp empty, Nat.zero_le _, trivial, ?_⟩
          rw [List.append_nil]
        next =>
          obtain ⟨open_, accepted⟩ := ok_of_unless accepted
          obtain ⟨⟨next, rest⟩, first, later⟩ := bind_eq_ok accepted
          obtain ⟨page, behind, rfl⟩ :=
            platform.exists_page_of_validatePage first
          rw [validatePage_eq_ok_iff] at first
          obtain ⟨steps, rfl⟩ := first
          obtain ⟨fits, rfl⟩ :=
            (platform.steps_streamAfter_iff small).mp steps
          obtain ⟨pages, rfl, few, others, rfl⟩ :=
            (ih fits.packets (by
              rw [List.length_append, List.length_singleton]
              omega)).mp later
          refine ⟨page :: pages, rfl, Nat.succ_le_succ few,
            ⟨Bool.eq_false_iff.mpr open_, fits, others⟩, ?_⟩
          rw [List.append_assoc, List.singleton_append]
      · rintro ⟨pages, rfl, few, accepted, rfl⟩
        cases pages with
        | nil =>
            rw [List.append_nil]
            rfl
        | cons page rest =>
            obtain ⟨open_, fits, others⟩ := accepted
            have steps := (platform.steps_streamAfter_iff small).mpr ⟨fits, rfl⟩
            have bytes : rawBytes (page :: rest) = page.encode ++ rawBytes rest := rfl
            have first := platform.validatePage_eq_ok_iff.mpr ⟨steps, @rfl _ (rawBytes rest)⟩
            have notEos : ¬(streamAfter front).sawEos = true :=
              Bool.eq_false_iff.mp open_
            rw [bytes, page.encode_ne_nil, if_neg Bool.false_ne_true, if_neg notEos]
            dsimp only
            rw [first, ok_bind]
            refine (ih fits.packets (by
              rw [List.length_append, List.length_singleton]
              omega)).mpr ⟨rest, rfl, Nat.le_of_succ_le_succ few, others, ?_⟩
            rw [List.append_assoc, List.singleton_append]

/-! ## The whole stream -/

/-- The grammar: whole pages of one serial, numbered from zero, the first and
the last of them marked, a page marked as continued after an unfinished
packet, packets within their limits, and no granule position exactly on the
pages on which no packet is completed. -/
structure IsPhysicalStream (pages : List RawPage) : Prop where
  serial : ∀ page ∈ pages, ∀ other ∈ pages, page.serial = other.serial
  sequence : ∀ front page back, pages = front ++ page :: back →
    page.sequence.toNat = front.length
  first : ∀ front page back, pages = front ++ page :: back → (page.first = true ↔ front = [])
  last : ∀ front page back, pages = front ++ page :: back → (page.last = true ↔ back = [])
  continued : ∀ front page back, pages = front ++ page :: back →
    (page.continued = true ↔ (lacingOf front).getLast? = some 255)
  granule : ∀ page ∈ pages, page.granule.toNat = 2 ^ 64 - 1 ↔
    ∀ length ∈ page.segments, length = 255
  packets : platform.CutFits 0 (cutFrom 0 (lacingOf pages))
  few : pages.length ≤ maxPageCount

/-- Every packet is complete, and there is one behind the two headers. -/
structure HasAudio (pages : List RawPage) : Prop where
  complete : (cutFrom 0 (lacingOf pages)).2 = 0
  audio : 3 ≤ (cutFrom 0 (lacingOf pages)).1.length

theorem pagesFit_iff {front pages : List RawPage} :
    platform.PagesFit front pages ↔
      ∀ middle page back, pages = middle ++ page :: back →
        (front ++ middle).getLast?.any RawPage.last = false ∧
          platform.PageFits (front ++ middle) page := by
  induction pages generalizing front with
  | nil =>
      constructor
      · intro _ middle page back none
        cases middle <;> cases none
      · intro _
        trivial
  | cons head rest ih =>
      rw [PagesFit, ih]
      constructor
      · rintro ⟨open_, fits, others⟩ middle page back split
        cases middle with
        | nil =>
            cases split
            rw [List.append_nil]
            exact ⟨open_, fits⟩
        | cons first between =>
            rw [List.cons_append] at split
            cases split
            have later := others between page back rfl
            rw [List.append_assoc, List.singleton_append] at later
            exact later
      · intro all
        have here := all [] head rest rfl
        rw [List.append_nil] at here
        refine ⟨here.1, here.2, ?_⟩
        rintro middle page back rfl
        have later := all (head :: middle) page back rfl
        rw [List.append_assoc, List.singleton_append]
        exact later

/-- What fits as a whole fits up to every place. -/
private theorem cutFits_prefix {front back : List UInt8}
    (whole : platform.CutFits 0 (cutFrom 0 (front ++ back))) :
    platform.CutFits 0 (cutFrom 0 front) := by
  rw [cutFrom_append] at whole
  have sizes := whole.sizes
  have unfinished := whole.unfinished
  have count := whole.count
  rw [sizesFit_append] at sizes
  rw [List.length_append] at unfinished count
  refine ⟨sizes.1, ?_, by omega⟩
  rcases unfinished_le_cutFrom (cutFrom 0 front).2 back with
    ⟨size, others, next, more⟩ | ⟨none, more⟩
  · have fitting := sizes.2
    rw [next] at fitting
    exact Nat.le_trans more fitting.1
  · rw [none, List.length_nil, Nat.add_zero] at unfinished
    exact Nat.le_trans more unfinished

theorem pagesFit_of_isPhysicalStream {pages : List RawPage}
    (stream : platform.IsPhysicalStream pages) :
    platform.PagesFit [] pages := by
  rw [pagesFit_iff]
  rintro front page back split
  rw [List.nil_append]
  have among : page ∈ pages := by
    rw [split]
    exact List.mem_append_right front (.head back)
  constructor
  · cases ended : front.getLast? with
    | none => rfl
    | some before =>
        obtain ⟨earlier, rfl⟩ := List.getLast?_eq_some_iff.mp ended
        rw [List.append_assoc, List.singleton_append] at split
        have notLast := stream.last earlier before (page :: back) split
        rw [Option.any_some, ← Bool.not_eq_true, notLast]
        exact List.cons_ne_nil page back
  · constructor
    · intro first isFirst
      refine stream.serial first ?_ page among
      rw [split]
      exact List.mem_append_left _ (List.mem_of_mem_head? isFirst)
    · exact stream.sequence front page back split
    · exact stream.first front page back split
    · exact stream.continued front page back split
    · exact stream.granule page among
    · have whole := stream.packets
      have parts : lacingOf pages =
          lacingOf (front ++ [page]) ++ lacingOf back := by
        rw [split, lacingOf, List.flatMap_append, List.flatMap_cons,
          lacingOf_concat, lacingOf, lacingOf, List.append_assoc]
      rw [parts] at whole
      exact platform.cutFits_prefix whole

theorem isPhysicalStream_of_pagesFit {pages : List RawPage}
    (accepted : platform.PagesFit [] pages) (few : pages.length ≤ maxPageCount)
    (ended : pages.getLast?.any RawPage.last = true) :
    platform.IsPhysicalStream pages := by
  rw [pagesFit_iff] at accepted
  have fits : ∀ front page back, pages = front ++ page :: back →
      platform.PageFits front page := by
    intro front page back split
    exact (accepted front page back split).2
  have toFirst : ∀ page ∈ pages, ∀ first ∈ pages.head?,
      first.serial = page.serial := by
    intro page among first isFirst
    obtain ⟨front, back, split⟩ := List.append_of_mem among
    cases front with
    | nil =>
        rw [split] at isFirst
        cases isFirst
        rfl
    | cons head rest =>
        refine (fits _ page back split).serial first ?_
        rw [split] at isFirst
        exact isFirst
  constructor
  · intro page among other amongOther
    cases pages with
    | nil => cases among
    | cons first rest =>
        rw [← toFirst page among first rfl, ← toFirst other amongOther first rfl]
  · intro front page back split
    exact (fits front page back split).sequence
  · intro front page back split
    exact (fits front page back split).first
  · intro front page back split
    constructor
    · intro isLast
      cases back with
      | nil => rfl
      | cons next rest =>
          have before := accepted (front ++ [page]) next rest (by
            rw [split, List.append_assoc, List.singleton_append])
          rw [List.nil_append, List.getLast?_concat, Option.any_some, isLast] at before
          cases before.1
    · rintro rfl
      rw [split, List.getLast?_concat] at ended
      exact ended
  · intro front page back split
    exact (fits front page back split).continued
  · intro page among
    obtain ⟨front, back, split⟩ := List.append_of_mem among
    exact (fits front page back split).granule
  · cases final : pages.getLast? with
    | none =>
        rw [final] at ended
        cases ended
    | some page =>
        obtain ⟨front, rfl⟩ := List.getLast?_eq_some_iff.mp final
        exact (fits front page [] rfl).packets
  · exact few

/-- The validation accepts the bytes of a stream of the grammar that has
some audio, and nothing else; what it returns is the stream's serial. -/
theorem validatePhysicalStream_eq_ok_iff (data : List UInt8) (serial : Nat) :
    platform.validatePhysicalStream data = .ok serial ↔
      data.length ≤ voiceMemoMaxAudioBytes ∧
        ∃ pages, data = rawBytes pages ∧
          platform.IsPhysicalStream pages ∧ HasAudio pages ∧
            ∀ page ∈ pages, page.serial.toNat = serial := by
  have start : (⟨none, 0, 0, false, 0, 0⟩ : PhysicalStream) = streamAfter [] := rfl
  have within : platform.CutFits 0 (cutFrom 0 (lacingOf [])) :=
    ⟨trivial, Nat.zero_le _, Nat.zero_le _⟩
  have countable : ([] : List RawPage).length + maxPageCount + 1 <
      2 ^ 32 := by
    decide
  rw [validatePhysicalStream, start]
  constructor
  · intro accepted
    obtain ⟨sized, accepted⟩ := ok_of_unless accepted
    obtain ⟨final, scanned, accepted⟩ := bind_eq_ok accepted
    obtain ⟨ended, accepted⟩ := ok_of_unless accepted
    obtain ⟨pages, rfl, few, all, rfl⟩ :=
      (platform.validatePages_eq_ok_iff within countable).mp scanned
    rw [List.nil_append] at ended accepted
    rw [Bool.or_eq_true, Bool.or_eq_true, decide_eq_true_eq,
      decide_eq_true_eq, not_or, not_or, not_not, Nat.not_lt,
      Bool.not_eq_true, Bool.not_eq_false'] at ended
    obtain ⟨⟨marked, complete⟩, audio⟩ := ended
    have stream := platform.isPhysicalStream_of_pagesFit all few marked
    rw [Bool.or_eq_true, decide_eq_true_eq, decide_eq_true_eq, not_or,
      Nat.not_lt, Nat.not_lt] at sized
    refine ⟨sized.2, pages, rfl, stream, ⟨complete, audio⟩, ?_⟩
    intro page among
    cases pages with
    | nil => cases among
    | cons first rest =>
        rw [stream.serial page among first (.head rest)]
        exact Except.ok.inj accepted
  · rintro ⟨small, pages, rfl, stream, audio, serials⟩
    have scanned := (platform.validatePages_eq_ok_iff within
      countable).mpr ⟨pages, rfl, stream.few, platform.pagesFit_of_isPhysicalStream stream, rfl⟩
    rw [List.nil_append] at scanned
    cases pages with
    | nil => cases audio.audio
    | cons first rest =>
        have long : 27 ≤ (rawBytes (first :: rest)).length := by
          have bytes : rawBytes (first :: rest) = first.encode ++ rawBytes rest := rfl
          have least := first.length_encode
          rw [bytes, List.length_append]
          omega
        have sized :
            ¬(decide ((rawBytes (first :: rest)).length < 27) ||
              decide (voiceMemoMaxAudioBytes <
                (rawBytes (first :: rest)).length)) = true := by
          rw [Bool.or_eq_true, decide_eq_true_eq, decide_eq_true_eq]
          omega
        have marked : (streamAfter (first :: rest)).sawEos = true := by
          obtain ⟨front, page, split⟩ :=
            List.eq_nil_or_concat' (first :: rest) |>.resolve_left (List.cons_ne_nil first rest)
          have isLast := (stream.last front page [] split).mpr rfl
          rw [split, streamAfter_concat]
          exact isLast
        have ended :
            ¬(!(streamAfter (first :: rest)).sawEos ||
              decide ((streamAfter (first :: rest)).partialPacketBytes ≠ 0) ||
              decide ((streamAfter (first :: rest)).completedPackets <
                3)) = true := by
          rw [Bool.or_eq_true, Bool.or_eq_true, decide_eq_true_eq,
            decide_eq_true_eq, marked]
          rintro ((impossible | unfinished) | short)
          · cases impossible
          · exact unfinished audio.complete
          · exact Nat.not_lt.mpr audio.audio short
        rw [if_neg sized, scanned, ok_bind, if_neg ended]
        exact congrArg Except.ok (serials first (.head rest))

end VoicePlatform

end Ratspeak
