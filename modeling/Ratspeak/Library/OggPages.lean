import Mathlib.Data.List.Induction
import Mathlib.Data.List.TakeDrop
import Ratspeak.Library.Ogg

/-!
# Pages on the wire

A page as it stands in an Ogg stream: its flags, its numbers, its lacing table
and as many bytes of packets as the table says.  A packet may begin on one
page and end on a later one; `cutFrom` cuts a lacing table into the sizes of
the packets that it completes, and what it leaves unfinished.

Bytes that begin with a whole page are the bytes of exactly one page and what
comes after it.
-/

namespace Ratspeak.Library

theorem littleEndian_ofLittleEndian (bytes : List UInt8) :
    littleEndian bytes.length (ofLittleEndian bytes) = bytes := by
  induction bytes with
  | nil => rfl
  | cons byte rest ih =>
      have small : byte.toNat < 256 := byte.toNat_lt
      have low : (byte.toNat + 256 * ofLittleEndian rest) % 256 =
          byte.toNat := by
        omega
      have high : (byte.toNat + 256 * ofLittleEndian rest) / 256 =
          ofLittleEndian rest := by
        omega
      rw [List.length_cons, ofLittleEndian, littleEndian, low, high, ih, UInt8.ofNat_toNat]

namespace Ogg

structure RawPage where
  continued : Bool
  first : Bool
  last : Bool
  granule : UInt64
  serial : UInt32
  sequence : UInt32
  checksum : UInt32
  segments : List UInt8
  body : List UInt8
  short : segments.length ≤ 255
  whole : body.length = (segments.map UInt8.toNat).sum
deriving DecidableEq

namespace RawPage

def flags (page : RawPage) : UInt8 :=
  (if page.continued then 1 else 0) ||| (if page.first then 2 else 0) |||
    (if page.last then 4 else 0)

def header (page : RawPage) : List UInt8 :=
  [0x4F, 0x67, 0x67, 0x53, 0, page.flags] ++
    littleEndian 8 page.granule.toNat ++
    littleEndian 4 page.serial.toNat ++
    littleEndian 4 page.sequence.toNat ++
    littleEndian 4 page.checksum.toNat ++
    [UInt8.ofNat page.segments.length]

def encode (page : RawPage) : List UInt8 :=
  page.header ++ page.segments ++ page.body

variable (page : RawPage)

@[simp]
theorem length_header : page.header.length = 27 := by
  simp [header]

theorem header_magic :
    page.header.take 4 = [0x4F, 0x67, 0x67, 0x53] :=
  rfl

theorem header_version : page.header.getD 4 0 = 0 :=
  rfl

theorem header_flags : page.header.getD 5 0 = page.flags :=
  rfl

theorem header_granule :
    ofLittleEndian ((page.header.drop 6).take 8) =
      page.granule.toNat := by
  have bytes : (page.header.drop 6).take 8 = littleEndian 8 page.granule.toNat := rfl
  have fits : page.granule.toNat < 256 ^ 8 := page.granule.toNat_lt
  rw [bytes, ofLittleEndian_littleEndian fits]

theorem header_serial :
    ofLittleEndian ((page.header.drop 14).take 4) =
      page.serial.toNat := by
  have bytes : (page.header.drop 14).take 4 = littleEndian 4 page.serial.toNat := rfl
  have fits : page.serial.toNat < 256 ^ 4 := page.serial.toNat_lt
  rw [bytes, ofLittleEndian_littleEndian fits]

theorem header_sequence :
    ofLittleEndian ((page.header.drop 18).take 4) =
      page.sequence.toNat := by
  have bytes : (page.header.drop 18).take 4 = littleEndian 4 page.sequence.toNat := rfl
  have fits : page.sequence.toNat < 256 ^ 4 := page.sequence.toNat_lt
  rw [bytes, ofLittleEndian_littleEndian fits]

theorem header_segments :
    (page.header.getD 26 0).toNat = page.segments.length :=
  UInt8.toNat_ofNat_of_lt' (Nat.lt_succ_of_le page.short)

theorem flags_unused : page.flags &&& ~~~0x07 = 0 := by
  rw [flags]
  cases page.continued <;> cases page.first <;> cases page.last <;> decide

theorem flags_continued :
    page.flags &&& 0x01 ≠ 0 ↔ page.continued = true := by
  rw [flags]
  cases page.continued <;> cases page.first <;> cases page.last <;> decide

theorem flags_first : page.flags &&& 0x02 ≠ 0 ↔ page.first = true := by
  rw [flags]
  cases page.continued <;> cases page.first <;> cases page.last <;> decide

theorem flags_last : page.flags &&& 0x04 ≠ 0 ↔ page.last = true := by
  rw [flags]
  cases page.continued <;> cases page.first <;> cases page.last <;> decide

theorem length_encode : 27 ≤ page.encode.length := by
  rw [encode, List.length_append, List.length_append, length_header]
  omega

theorem encode_ne_nil (rest : List UInt8) :
    (page.encode ++ rest).isEmpty = false := by
  have long := page.length_encode
  rw [List.isEmpty_eq_false_iff]
  intro none
  have length := congrArg List.length none
  rw [List.length_append, List.length_nil] at length
  omega

section Parts

variable (rest : List UInt8)

private theorem encode_append :
    page.encode ++ rest =
      page.header ++ (page.segments ++ (page.body ++ rest)) := by
  rw [encode, List.append_assoc, List.append_assoc]

theorem take_encode : (page.encode ++ rest).take 27 = page.header := by
  rw [encode_append]
  exact List.take_left' page.length_header

theorem drop_encode :
    (page.encode ++ rest).drop 27 =
      page.segments ++ (page.body ++ rest) := by
  rw [encode_append]
  exact List.drop_left' page.length_header

theorem take_table :
    (page.segments ++ (page.body ++ rest)).take page.segments.length = page.segments :=
  List.take_left

theorem drop_table :
    (page.segments ++ (page.body ++ rest)).drop page.segments.length = page.body ++ rest :=
  List.drop_left

theorem drop_body :
    (page.body ++ rest).drop (page.segments.map UInt8.toNat).sum =
      rest := by
  rw [← page.whole]
  exact List.drop_left

end Parts

end RawPage

/-! ## Reading a page -/

private theorem flags_of_unused (flags : UInt8) (unused : flags &&& ~~~0x07 = 0) :
    (if flags &&& 0x01 != 0 then 1 else 0) |||
        (if flags &&& 0x02 != 0 then 2 else 0) |||
          (if flags &&& 0x04 != 0 then 4 else 0) = flags := by
  revert unused
  cases flags with
  | ofBitVec bits =>
      cases bits with
      | ofFin small =>
          revert small
          decide +kernel

private theorem drop_eq_getD_cons {bytes : List UInt8} {place : Nat}
    (inside : place < bytes.length) :
    bytes.drop place = bytes.getD place 0 :: bytes.drop (place + 1) := by
  rw [List.drop_eq_getElem_cons inside, List.getD_eq_getElem?_getD,
    List.getElem?_eq_getElem inside, Option.getD_some]

private theorem drop_eq_take_append (bytes : List UInt8) (place count : Nat) :
    bytes.drop place =
      (bytes.drop place).take count ++ bytes.drop (place + count) := by
  rw [← List.drop_drop, List.take_append_drop]

/-- The places of a header are all there is to it. -/
private theorem header_parts {header : List UInt8} (sized : header.length = 27) :
    header = header.take 4 ++
      (header.getD 4 0 :: header.getD 5 0 ::
        ((header.drop 6).take 8 ++ ((header.drop 14).take 4 ++
          ((header.drop 18).take 4 ++ ((header.drop 22).take 4 ++
            [header.getD 26 0]))))) := by
  have version : header.drop 4 = header.getD 4 0 :: header.drop 5 :=
    drop_eq_getD_cons (by omega)
  have flags : header.drop 5 = header.getD 5 0 :: header.drop 6 :=
    drop_eq_getD_cons (by omega)
  have granule : header.drop 6 =
      (header.drop 6).take 8 ++ header.drop 14 :=
    drop_eq_take_append header 6 8
  have serial : header.drop 14 =
      (header.drop 14).take 4 ++ header.drop 18 :=
    drop_eq_take_append header 14 4
  have sequence : header.drop 18 =
      (header.drop 18).take 4 ++ header.drop 22 :=
    drop_eq_take_append header 18 4
  have checksum : header.drop 22 =
      (header.drop 22).take 4 ++ header.drop 26 :=
    drop_eq_take_append header 22 4
  have segments : header.drop 26 = [header.getD 26 0] := by
    rw [drop_eq_getD_cons (by omega),
      List.drop_eq_nil_of_le (Nat.le_of_eq sized)]
  rw [← segments, ← checksum, ← sequence, ← serial, ← granule, ← flags,
    ← version, List.take_append_drop]

private theorem word_of_bytes {bytes : List UInt8} {count : Nat}
    (sized : bytes.length = count) :
    littleEndian count (ofLittleEndian bytes) = bytes := by
  subst sized
  exact littleEndian_ofLittleEndian bytes

private theorem word_lt {bytes : List UInt8} {count : Nat} (sized : bytes.length = count) :
    ofLittleEndian bytes < 256 ^ count := by
  subst sized
  exact ofLittleEndian_lt bytes

/-- Bytes that begin with a whole page are those of a page. -/
theorem exists_rawPage {data header : List UInt8}
    (long : 27 ≤ data.length) (isHeader : data.take 27 = header)
    (magic : header.take 4 = [0x4F, 0x67, 0x67, 0x53]) (version : header.getD 4 0 = 0)
    (unused : header.getD 5 0 &&& ~~~0x07 = 0)
    (table : (header.getD 26 0).toNat ≤ (data.drop 27).length) (packets : (((data.drop 27).take
        (header.getD 26 0).toNat).map UInt8.toNat).sum ≤
      ((data.drop 27).drop (header.getD 26 0).toNat).length) :
    ∃ page : RawPage, ∃ rest, data = page.encode ++ rest := by
  have sized : header.length = 27 := by
    rw [← isHeader]
    exact List.length_take_of_le long
  have parts := header_parts sized
  have granule : ((header.drop 6).take 8).length = 8 := by
    simp [sized]
  have serial : ((header.drop 14).take 4).length = 4 := by
    simp [sized]
  have sequence : ((header.drop 18).take 4).length = 4 := by
    simp [sized]
  have checksum : ((header.drop 22).take 4).length = 4 := by
    simp [sized]
  let count := (header.getD 26 0).toNat
  have counted : ((data.drop 27).take count).length = count :=
    List.length_take_of_le table
  let page : RawPage :=
    { continued := header.getD 5 0 &&& 0x01 != 0
      first := header.getD 5 0 &&& 0x02 != 0
      last := header.getD 5 0 &&& 0x04 != 0
      granule := UInt64.ofNat (ofLittleEndian ((header.drop 6).take 8))
      serial := UInt32.ofNat (ofLittleEndian ((header.drop 14).take 4))
      sequence := UInt32.ofNat (ofLittleEndian ((header.drop 18).take 4))
      checksum := UInt32.ofNat (ofLittleEndian ((header.drop 22).take 4))
      segments := (data.drop 27).take count
      body := ((data.drop 27).drop count).take (((data.drop 27).take count).map UInt8.toNat).sum
      short := by
        rw [counted]
        exact Nat.le_of_lt_succ (UInt8.toNat_lt _)
      whole := List.length_take_of_le packets }
  have sameHeader : page.header = header := by
    have flags : page.flags = header.getD 5 0 :=
      flags_of_unused (header.getD 5 0) unused
    have segments : UInt8.ofNat page.segments.length = header.getD 26 0 := by
      change UInt8.ofNat ((data.drop 27).take count).length = _
      rw [counted, UInt8.ofNat_toNat]
    have granule_toNat : page.granule.toNat =
        ofLittleEndian ((header.drop 6).take 8) :=
      UInt64.toNat_ofNat_of_lt' (word_lt granule)
    have serial_toNat : page.serial.toNat =
        ofLittleEndian ((header.drop 14).take 4) :=
      UInt32.toNat_ofNat_of_lt' (word_lt serial)
    have sequence_toNat : page.sequence.toNat =
        ofLittleEndian ((header.drop 18).take 4) :=
      UInt32.toNat_ofNat_of_lt' (word_lt sequence)
    have checksum_toNat : page.checksum.toNat =
        ofLittleEndian ((header.drop 22).take 4) :=
      UInt32.toNat_ofNat_of_lt' (word_lt checksum)
    rw [parts, magic, version, RawPage.header, flags, segments,
      granule_toNat, serial_toNat, sequence_toNat, checksum_toNat,
      word_of_bytes granule, word_of_bytes serial,
      word_of_bytes sequence, word_of_bytes checksum]
    simp only [List.append_assoc, List.cons_append, List.nil_append]
  refine ⟨page, ((data.drop 27).drop count).drop
    (((data.drop 27).take count).map UInt8.toNat).sum, ?_⟩
  rw [RawPage.encode, sameHeader, ← isHeader, List.append_assoc, List.append_assoc]
  change data = data.take 27 ++ ((data.drop 27).take count ++
    (((data.drop 27).drop count).take _ ++ ((data.drop 27).drop count).drop _))
  rw [List.take_append_drop, List.take_append_drop, List.take_append_drop]

/-! ## Packets -/

private theorem eq_of_not_lt {length : UInt8} (large : ¬length < 255) :
    length = 255 := by
  have bound := length.toNat_lt
  have least := UInt8.le_iff_toNat_le.mp (UInt8.not_lt.mp large)
  exact UInt8.toNat_inj.mp (Nat.le_antisymm (Nat.le_of_lt_succ bound) least)

/-- The sizes of the packets that a lacing table completes, when so much of
the first is there already, and what it leaves unfinished. -/
def cutFrom : Nat → List UInt8 → List Nat × Nat
  | unfinished, [] => ([], unfinished)
  | unfinished, length :: rest =>
      if length < 255 then
        let cut := cutFrom 0 rest
        ((unfinished + length.toNat) :: cut.1, cut.2)
      else cutFrom (unfinished + length.toNat) rest

theorem cutFrom_append (unfinished : Nat) (front back : List UInt8) :
    cutFrom unfinished (front ++ back) =
      ((cutFrom unfinished front).1 ++
          (cutFrom (cutFrom unfinished front).2 back).1,
        (cutFrom (cutFrom unfinished front).2 back).2) := by
  induction front generalizing unfinished with
  | nil => rfl
  | cons length rest ih =>
      rw [List.cons_append, cutFrom, cutFrom]
      by_cases short : length < 255
      · rw [if_pos short, if_pos short, ih]
        rfl
      · rw [if_neg short, if_neg short, ih]

/-- What is unfinished goes into the next packet that is completed. -/
theorem unfinished_le_cutFrom (unfinished : Nat) (lacing : List UInt8) :
    (∃ size others, (cutFrom unfinished lacing).1 = size :: others ∧
        unfinished ≤ size) ∨
      ((cutFrom unfinished lacing).1 = [] ∧
        unfinished ≤ (cutFrom unfinished lacing).2) := by
  induction lacing generalizing unfinished with
  | nil => exact .inr ⟨rfl, Nat.le_refl _⟩
  | cons length rest ih =>
      rw [cutFrom]
      by_cases short : length < 255
      · rw [if_pos short]
        exact .inl ⟨_, _, rfl, Nat.le_add_right _ _⟩
      · rw [if_neg short]
        have enough : unfinished ≤ unfinished + length.toNat :=
          Nat.le_add_right _ _
        rcases ih (unfinished + length.toNat) with
          ⟨size, others, next, more⟩ | ⟨none, more⟩
        · exact .inl ⟨size, others, next, Nat.le_trans enough more⟩
        · exact .inr ⟨none, Nat.le_trans enough more⟩

/-- No packet is completed exactly by full segments alone. -/
theorem cutFrom_fst_eq_nil_iff (unfinished : Nat) (lacing : List UInt8) :
    (cutFrom unfinished lacing).1 = [] ↔
      ∀ length ∈ lacing, length = 255 := by
  induction lacing generalizing unfinished with
  | nil => simp [cutFrom]
  | cons length rest ih =>
      rw [cutFrom]
      by_cases short : length < 255
      · have other : length ≠ 255 := by
          rintro rfl
          exact absurd short (by decide)
        rw [if_pos short]
        simp [other]
      · rw [if_neg short, ih]
        simp [eq_of_not_lt short]

/-- A packet is unfinished exactly after a full segment. -/
theorem cutFrom_snd_ne_zero_iff (lacing : List UInt8) :
    (cutFrom 0 lacing).2 ≠ 0 ↔ lacing.getLast? = some 255 := by
  induction lacing using List.reverseRecOn with
  | nil => simp [cutFrom]
  | append_singleton front length _ =>
      rw [cutFrom_append, List.getLast?_concat, cutFrom]
      by_cases short : length < 255
      · have other : length ≠ 255 := by
          rintro rfl
          exact absurd short (by decide)
        rw [if_pos short]
        simp [cutFrom, other]
      · rw [if_neg short, eq_of_not_lt short, cutFrom]
        simp

/-- The lacing tables of pages, one after the other. -/
def lacingOf (pages : List RawPage) : List UInt8 :=
  pages.flatMap RawPage.segments

def rawBytes (pages : List RawPage) : List UInt8 :=
  pages.flatMap RawPage.encode

end Ogg

end Ratspeak.Library
