import Ratspeak.Library.Bytes

/-!
# Ogg pages

A logical stream of packets, cut into pages.  A page has a header, a table of
lacing values that says how long its packets are, and the packets.  Only pages
on which every packet that starts there also ends are described here.

A writer is told with each packet whether the page or the stream ends with it,
and of which granule position the packet is; `pagesOf` are the pages that it
writes, and `packetsOf` is what a reader says of the packets.
-/

namespace Ratspeak.Library.Ogg

/-! ## Pages as bytes -/

structure Page where
  first : Bool
  last : Bool
  granule : Nat
  serial : Nat
  sequence : Nat
  packets : List (List UInt8)
deriving DecidableEq, Repr

/-- The lacing values of a packet. -/
def lacing (packet : List UInt8) : List UInt8 :=
  List.replicate (packet.length / 255) 255 ++ [UInt8.ofNat (packet.length % 255)]

/-- Feed one bit to the checksum. -/
def crcBit (crc : UInt32) : UInt32 :=
  if crc &&& 0x80000000 = 0 then crc <<< 1
  else (crc <<< 1) ^^^ 0x04c11db7

def crcBits : Nat → UInt32 → UInt32
  | 0, crc => crc
  | count + 1, crc => crcBits count (crcBit crc)

def crcByte (crc : UInt32) (byte : UInt8) : UInt32 :=
  crcBits 8 (crc ^^^ (byte.toUInt32 <<< 24))

/-- The checksum of a page whose checksum is zero. -/
def checksum (bytes : List UInt8) : UInt32 :=
  bytes.foldl crcByte 0

namespace Page

def lacing (page : Page) : List UInt8 :=
  page.packets.flatMap Ogg.lacing

def body (page : Page) : List UInt8 :=
  page.packets.flatten

def flags (page : Page) : UInt8 :=
  (if page.first then 2 else 0) + (if page.last then 4 else 0)

def header (page : Page) (crc : UInt32) : List UInt8 :=
  [0x4F, 0x67, 0x67, 0x53, 0, page.flags] ++
    littleEndian 8 page.granule ++ littleEndian 4 page.serial ++
    littleEndian 4 page.sequence ++ littleEndian 4 crc.toNat ++
    [UInt8.ofNat page.lacing.length]

def encode (page : Page) : List UInt8 :=
  let crc := checksum (page.header 0 ++ page.lacing ++ page.body)
  page.header crc ++ page.lacing ++ page.body

/-- The numbers of a page fit their places. -/
structure Fits (page : Page) : Prop where
  lacing : page.lacing.length ≤ 255
  granule : page.granule < 2 ^ 64
  serial : page.serial < 2 ^ 32
  sequence : page.sequence < 2 ^ 32

@[simp]
theorem length_header (page : Page) (crc : UInt32) :
    (page.header crc).length = 27 := by
  simp [header]

section Header

variable (page : Page) (crc : UInt32)

theorem header_magic :
    (page.header crc).take 4 = [0x4F, 0x67, 0x67, 0x53] :=
  rfl

theorem header_version : (page.header crc).getD 4 0 = 0 :=
  rfl

theorem header_flags : (page.header crc).getD 5 0 = page.flags :=
  rfl

theorem header_granule :
    ((page.header crc).drop 6).take 8 = littleEndian 8 page.granule :=
  rfl

theorem header_serial :
    ((page.header crc).drop 14).take 4 = littleEndian 4 page.serial :=
  rfl

theorem header_sequence :
    ((page.header crc).drop 18).take 4 = littleEndian 4 page.sequence :=
  rfl

theorem header_segments :
    (page.header crc).getD 26 0 = UInt8.ofNat page.lacing.length :=
  rfl

theorem flags_continued : page.flags &&& 0x01 = 0 := by
  rw [flags]
  cases page.first <;> cases page.last <;> rfl

theorem flags_first : page.flags &&& 0x02 = 0 ↔ page.first = false := by
  rw [flags]
  cases page.first <;> cases page.last <;> decide

theorem flags_last : page.flags &&& 0x04 = 0 ↔ page.last = false := by
  rw [flags]
  cases page.first <;> cases page.last <;> decide

theorem flags_unused : page.flags &&& ~~~0x07 = 0 := by
  rw [flags]
  cases page.first <;> cases page.last <;> rfl

end Header

theorem sum_lacing (packet : List UInt8) :
    ((Ogg.lacing packet).map UInt8.toNat).sum = packet.length := by
  have small : packet.length % 255 < 256 := by
    omega
  simp only [Ogg.lacing, List.map_append, List.map_replicate,
    List.sum_append, List.sum_replicate_nat, List.map_singleton,
    List.sum_singleton, UInt8.toNat_ofNat_of_lt' small]
  have parts := Nat.div_add_mod packet.length 255
  rw [show UInt8.toNat 255 = 255 from rfl]
  omega

theorem length_lacing (packet : List UInt8) :
    (Ogg.lacing packet).length = packet.length / 255 + 1 := by
  simp [Ogg.lacing]

theorem length_flatMap_lacing_le {packets : List (List UInt8)} {bound : Nat}
    (short : ∀ packet ∈ packets, packet.length ≤ bound) :
    (packets.flatMap Ogg.lacing).length ≤
      packets.length * (bound / 255 + 1) := by
  induction packets with
  | nil => exact Nat.zero_le _
  | cons packet rest ih =>
      have first : packet.length / 255 ≤ bound / 255 :=
        Nat.div_le_div_right (short packet List.mem_cons_self)
      have others := ih fun other member =>
        short other (List.mem_cons_of_mem packet member)
      rw [List.flatMap_cons, List.length_append, length_lacing, List.length_cons, Nat.succ_mul]
      omega

/-- A few packets of bounded length have few lacing values. -/
theorem length_page_lacing_le {page : Page} {count bound : Nat}
    (few : page.packets.length ≤ count)
    (short : ∀ packet ∈ page.packets, packet.length ≤ bound) :
    page.lacing.length ≤ count * (bound / 255 + 1) :=
  Nat.le_trans (length_flatMap_lacing_le short) (Nat.mul_le_mul_right _ few)

/-- The lacing values add up to the body. -/
theorem sum_page_lacing (page : Page) :
    (page.lacing.map UInt8.toNat).sum = page.body.length := by
  rw [lacing, body]
  induction page.packets with
  | nil => rfl
  | cons packet rest ih =>
      rw [List.flatMap_cons, List.map_append, List.sum_append, sum_lacing,
        ih, List.flatten_cons, List.length_append]

end Page

/-! ## Writing and reading packets -/

inductive EndInfo where
  | normalPacket
  | endPage
  | endStream
deriving DecidableEq, Repr

structure Write where
  data : List UInt8
  serial : Nat
  endInfo : EndInfo
  granule : Nat
deriving DecidableEq, Repr

/-- A packet as it is read. -/
structure Packet where
  data : List UInt8
  streamSerial : Nat
  firstInStream : Bool
  lastInStream : Bool
  firstInPage : Bool
  lastInPage : Bool
  absgpPage : Nat
deriving DecidableEq, Repr

/-- The page that ends with a packet, after those that it holds already. -/
def pageWith (first : Bool) (sequence : Nat) (held : List (List UInt8))
    (write : Write) (last : Bool) : Page where
  first := first
  last := last
  granule := write.granule
  serial := write.serial
  sequence := sequence
  packets := held ++ [write.data]

/-- The pages of the packets to come, after those that the page holds
already. -/
def pagesFrom (first : Bool) (sequence : Nat) (held : List (List UInt8)) :
    List Write → List Page
  | [] => []
  | write :: rest =>
      match write.endInfo with
      | .normalPacket => pagesFrom first sequence (held ++ [write.data]) rest
      | .endPage =>
          pageWith first sequence held write false :: pagesFrom false (sequence + 1) [] rest
      | .endStream =>
          pageWith first sequence held write true :: pagesFrom false (sequence + 1) [] rest

def pagesOf (writes : List Write) : List Page :=
  pagesFrom true 0 [] writes

/-- The packets of a page, from one that is the first on it or not. -/
def packetsFrom (page : Page) (first : Bool) :
    List (List UInt8) → List Packet
  | [] => []
  | data :: rest =>
      { data := data
        streamSerial := page.serial
        firstInStream := page.first && first
        lastInStream := page.last && rest.isEmpty
        firstInPage := first
        lastInPage := rest.isEmpty
        absgpPage := page.granule } :: packetsFrom page false rest

def packetsOf (pages : List Page) : List Packet :=
  pages.flatMap fun page => packetsFrom page true page.packets

def encode (pages : List Page) : List UInt8 :=
  pages.flatMap Page.encode

/-- The stream ends with the last packet and with no other. -/
def EndsOnce : List Write → Prop
  | [] => False
  | [last] => last.endInfo = .endStream
  | write :: rest => write.endInfo ≠ .endStream ∧ EndsOnce rest

/-- A whole stream was written: the packets are of one stream, which ends with
the last of them, and every page fits. -/
structure Complete (serial : Nat) (writes : List Write) : Prop where
  serial : ∀ write ∈ writes, write.serial = serial
  ends : EndsOnce writes
  fits : ∀ page ∈ pagesOf writes, page.Fits

/-- What remains to be said of a list that does not end at once. -/
theorem EndsOnce.tail {write : Write} {rest : List Write} (ends : EndsOnce (write :: rest)) :
    (rest = [] ∧ write.endInfo = .endStream) ∨
      (write.endInfo ≠ .endStream ∧ EndsOnce rest) := by
  cases rest with
  | nil => exact Or.inl ⟨rfl, ends⟩
  | cons next others => exact Or.inr ends

theorem EndsOnce.later {write : Write} {rest : List Write} (ends : EndsOnce (write :: rest))
    (goesOn : write.endInfo ≠ .endStream) : EndsOnce rest := by
  rcases ends.tail with ⟨-, isEnd⟩ | ⟨-, later⟩
  · exact (goesOn isEnd).elim
  · exact later

theorem EndsOnce.nothing {write : Write} {rest : List Write}
    (ends : EndsOnce (write :: rest)) (isEnd : write.endInfo = .endStream) : rest = [] := by
  rcases ends.tail with ⟨isNil, -⟩ | ⟨goesOn, -⟩
  · exact isNil
  · exact (goesOn isEnd).elim

theorem pagesFrom_ne_nil {first : Bool} {sequence : Nat}
    {held : List (List UInt8)} {writes : List Write} (ends : EndsOnce writes) :
    pagesFrom first sequence held writes ≠ [] := by
  induction writes generalizing first sequence held with
  | nil => exact ends.elim
  | cons write rest ih =>
      rw [pagesFrom]
      rcases ends.tail with ⟨-, isEnd⟩ | ⟨-, later⟩
      · rw [isEnd]
        exact List.cons_ne_nil _ _
      · split
        · exact ih later
        · exact List.cons_ne_nil _ _
        · exact List.cons_ne_nil _ _

theorem length_pagesFrom_le (first : Bool) (sequence : Nat)
    (held : List (List UInt8)) (writes : List Write) :
    (pagesFrom first sequence held writes).length ≤ writes.length := by
  induction writes generalizing first sequence held with
  | nil => exact Nat.le_refl 0
  | cons write rest ih =>
      rw [pagesFrom]
      split
      · exact Nat.le_succ_of_le (ih _ _ _)
      · exact Nat.succ_le_succ (ih _ _ _)
      · exact Nat.succ_le_succ (ih _ _ _)

@[simp]
theorem length_packetsFrom (page : Page) (first : Bool) (packets : List (List UInt8)) :
    (packetsFrom page first packets).length = packets.length := by
  induction packets generalizing first with
  | nil => rfl
  | cons packet rest ih => rw [packetsFrom, List.length_cons, ih, List.length_cons]

/-- No more packets are read than were written. -/
theorem length_packetsOf_pagesFrom_le (first : Bool) (sequence : Nat)
    (held : List (List UInt8)) (writes : List Write) :
    (packetsOf (pagesFrom first sequence held writes)).length ≤
      held.length + writes.length := by
  induction writes generalizing first sequence held with
  | nil => exact Nat.zero_le _
  | cons write rest ih =>
      have onPage : ∀ last, (packetsFrom
          (pageWith first sequence held write last) true
          (pageWith first sequence held write last).packets).length =
            held.length + 1 := by
        intro last
        rw [length_packetsFrom, pageWith, List.length_append, List.length_singleton]
      have further := ih false (sequence + 1) []
      rw [List.length_nil] at further
      rw [pagesFrom, List.length_cons]
      split
      · have more := ih first sequence
          (held ++ [write.data])
        rw [List.length_append, List.length_singleton] at more
        omega
      · rw [packetsOf, List.flatMap_cons, List.length_append, onPage]
        rw [packetsOf] at further
        omega
      · rw [packetsOf, List.flatMap_cons, List.length_append, onPage]
        rw [packetsOf] at further
        omega

/-! ## Pages back from bytes -/

/-- The lengths of packets by their lacing values, the first of which has so
many bytes already. -/
def packetLengths : Nat → List UInt8 → List Nat
  | _, [] => []
  | before, value :: rest =>
      if value < 255 then
        (before + value.toNat) :: packetLengths 0 rest
      else packetLengths (before + value.toNat) rest

def splitPackets : List Nat → List UInt8 → List (List UInt8)
  | [], _ => []
  | length :: rest, body => body.take length :: splitPackets rest (body.drop length)

/-- The page at the front of the bytes, and the bytes after it. -/
def decodePage (bytes : List UInt8) : Page × List UInt8 :=
  let header := bytes.take 27
  let count := (header.getD 26 0).toNat
  let values := (bytes.drop 27).take count
  let body := (bytes.drop 27).drop count
  ({ first := header.getD 5 0 &&& 0x02 ≠ 0
     last := header.getD 5 0 &&& 0x04 ≠ 0
     granule := ofLittleEndian ((header.drop 6).take 8)
     serial := ofLittleEndian ((header.drop 14).take 4)
     sequence := ofLittleEndian ((header.drop 18).take 4)
     packets := splitPackets (packetLengths 0 values) body },
    body.drop (values.map UInt8.toNat).sum)

/-- At most so many pages. -/
def decodePages : Nat → List UInt8 → List Page
  | 0, _ => []
  | left + 1, bytes =>
      if bytes.isEmpty then []
      else
        let (page, rest) := decodePage bytes
        page :: decodePages left rest

def decode (bytes : List UInt8) : List Page :=
  decodePages bytes.length bytes

private theorem packetLengths_replicate (count before : Nat) (rest : List UInt8) :
    packetLengths before (List.replicate count 255 ++ rest) =
      packetLengths (before + 255 * count) rest := by
  induction count generalizing before with
  | zero => rfl
  | succ count ih =>
      rw [List.replicate_succ, List.cons_append, packetLengths, if_neg (by decide), ih]
      have full : before + UInt8.toNat 255 + 255 * count =
          before + 255 * (count + 1) := by
        rw [show UInt8.toNat 255 = 255 from rfl]
        omega
      rw [full]

private theorem packetLengths_lacing (packet rest : List UInt8) :
    packetLengths 0 (lacing packet ++ rest) =
      packet.length :: packetLengths 0 rest := by
  have small : packet.length % 255 < 256 := by
    omega
  have isLast : UInt8.ofNat (packet.length % 255) < 255 := by
    rw [UInt8.lt_iff_toNat_lt, UInt8.toNat_ofNat_of_lt' small]
    exact Nat.mod_lt _ (by decide)
  rw [lacing, List.append_assoc, packetLengths_replicate,
    List.singleton_append, packetLengths, if_pos isLast,
    UInt8.toNat_ofNat_of_lt' small, Nat.zero_add, Nat.div_add_mod]

private theorem splitPackets_flatten (packets : List (List UInt8)) (rest : List UInt8) :
    splitPackets (packetLengths 0 (packets.flatMap lacing))
      (packets.flatten ++ rest) = packets := by
  induction packets with
  | nil => rfl
  | cons packet others ih =>
      rw [List.flatMap_cons, packetLengths_lacing, List.flatten_cons,
        List.append_assoc, splitPackets, List.take_left, List.drop_left,
        ih]

/-- A page is read as it was written. -/
theorem decodePage_encode {page : Page} (fits : page.Fits) (rest : List UInt8) :
    decodePage (page.encode ++ rest) = (page, rest) := by
  obtain ⟨crc, isEncoded⟩ : ∃ crc, page.encode =
      page.header crc ++ page.lacing ++ page.body :=
    ⟨_, rfl⟩
  have whole : page.encode ++ rest =
      page.header crc ++ (page.lacing ++ (page.body ++ rest)) := by
    rw [isEncoded, List.append_assoc, List.append_assoc]
  have isHeader : (page.encode ++ rest).take 27 = page.header crc := by
    rw [whole]
    exact List.take_left' (page.length_header crc)
  have isRest : (page.encode ++ rest).drop 27 =
      page.lacing ++ (page.body ++ rest) := by
    rw [whole]
    exact List.drop_left' (page.length_header crc)
  have count : (UInt8.ofNat page.lacing.length).toNat =
      page.lacing.length :=
    UInt8.toNat_ofNat_of_lt' (Nat.lt_succ_of_le fits.lacing)
  have isFirst : decide (page.flags &&& 2 ≠ 0) = page.first := by
    rw [Page.flags]
    cases page.first <;> cases page.last <;> rfl
  have isLast : decide (page.flags &&& 4 ≠ 0) = page.last := by
    rw [Page.flags]
    cases page.first <;> cases page.last <;> rfl
  have packets := splitPackets_flatten page.packets rest
  unfold decodePage
  dsimp only
  rw [isHeader, isRest, page.header_flags, page.header_granule,
    page.header_serial, page.header_sequence, page.header_segments, count,
    List.take_left, List.drop_left, page.sum_page_lacing, List.drop_left,
    isFirst, isLast, ofLittleEndian_littleEndian fits.granule,
    ofLittleEndian_littleEndian fits.serial,
    ofLittleEndian_littleEndian fits.sequence, Page.lacing, Page.body,
    packets]

private theorem decodePages_encode {pages : List Page} {left : Nat}
    (fits : ∀ page ∈ pages, page.Fits) (enough : pages.length ≤ left) :
    decodePages left (encode pages) = pages := by
  induction pages generalizing left with
  | nil => cases left <;> rfl
  | cons page rest ih =>
      obtain ⟨less, isLess⟩ := Nat.exists_eq_add_of_le' (show 1 ≤ left by
        rw [List.length_cons] at enough
        omega)
      have some_bytes : (page.encode ++ encode rest).isEmpty = false := by
        rw [List.isEmpty_eq_false_iff, Page.encode, Page.header]
        exact List.cons_ne_nil _ _
      have isEncode : encode (page :: rest) = page.encode ++ encode rest :=
        List.flatMap_cons
      rw [List.length_cons] at enough
      rw [isLess, decodePages, isEncode, some_bytes,
        if_neg Bool.false_ne_true,
        decodePage_encode (fits page List.mem_cons_self)]
      dsimp only
      rw [ih
        (fun other member => fits other (List.mem_cons_of_mem page member))
        (by omega)]

/-- Pages are read as they were written. -/
theorem decode_encode {pages : List Page} (fits : ∀ page ∈ pages, page.Fits) :
    decode (encode pages) = pages := by
  refine decodePages_encode fits ?_
  clear fits
  induction pages with
  | nil => exact Nat.zero_le _
  | cons page rest ih =>
      rw [encode] at ih ⊢
      rw [List.flatMap_cons, List.length_append, List.length_cons,
        Page.encode, List.length_append, List.length_append,
        Page.length_header]
      omega

end Ratspeak.Library.Ogg
