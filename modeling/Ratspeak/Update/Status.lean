import Ratspeak.Library.Tlv
import Ratspeak.Update.Frame

/-!
# Node status

The reply of a node to `status`: tagged fields, most of them optional.  The
decoder skips the tags that it does not know and refuses a known tag of the
wrong width; a later field replaces an earlier one with the same tag.  The
encoder writes the fields in the order of their tags.

An update keeps the status that it started from, as hexadecimal text.
-/

namespace Ratspeak

open Library

/-- The board an image is built for. -/
structure BoardTarget where
  platform : UInt8
  mcu : UInt8
  board : UInt8
deriving DecidableEq, Repr

structure FirmwareVersion where
  major : UInt16
  minor : UInt16
  patch : UInt16
deriving DecidableEq, Repr

inductive OwnerRole where
  | primary
  | helper
deriving DecidableEq, Repr

namespace OwnerRole

def toByte : OwnerRole → UInt8
  | .primary => 1
  | .helper => 2

def fromByte (byte : UInt8) : Option OwnerRole :=
  if byte = 1 then some .primary
  else if byte = 2 then some .helper
  else none

end OwnerRole

/-- Who started an update the node staged. -/
inductive UpdateSource where
  | link
  | root
  | usb
deriving DecidableEq, Repr

namespace UpdateSource

def toByte : UpdateSource → UInt8
  | .link => 1
  | .root => 2
  | .usb => 3

def fromByte (byte : UInt8) : Option UpdateSource :=
  if byte = 1 then some .link
  else if byte = 2 then some .root
  else if byte = 3 then some .usb
  else none

end UpdateSource

def releaseVersionMax : Nat := 24

def isAsciiGraphic (byte : UInt8) : Bool :=
  0x21 ≤ byte && byte ≤ 0x7E

/-- A release label; only the default one is empty. -/
structure ReleaseVersion where
  bytes : List UInt8
  short : bytes.length ≤ releaseVersionMax
  graphic : bytes.all isAsciiGraphic = true
deriving DecidableEq

/-- Text that is not ASCII is refused, whether it is UTF-8 or not. -/
def ReleaseVersion.new (source : List UInt8) : Option ReleaseVersion :=
  if accepted : source ≠ [] ∧ source.length ≤ releaseVersionMax ∧
      source.all isAsciiGraphic = true then
    some ⟨source, accepted.2.1, accepted.2.2⟩
  else none

structure RunningImage where
  len : UInt32
  sha256 : Bytes 32
deriving DecidableEq

structure LastUpdateStatus where
  sequence : UInt32
  source : UpdateSource
  owner : Bytes 16
  running : Bool
deriving DecidableEq

structure TransferStatus where
  nextOffset : UInt32
  total : UInt32
  delta : Bool
deriving DecidableEq, Repr

structure WifiStatus where
  mode : UInt8
  serviceReady : Bool
  ip : Bytes 4
deriving DecidableEq

structure SessionPath where
  interfaceId : UInt8
  hops : UInt8
deriving DecidableEq, Repr

structure StatusRadio where
  frequencyHz : UInt32
  bandwidthHz : UInt32
  spreadingFactor : UInt8
  codingRate : UInt8
  txPowerDbm : Int8
  dutyTenthsPercent : UInt16
  maxTransmissionMs : UInt32
  hourUsedMs : UInt32
  hourBudgetMs : UInt32
deriving DecidableEq

structure ManageStatus where
  board : Option BoardTarget := none
  firmware : Option FirmwareVersion := none
  releaseKeyId : Option (Bytes 8) := none
  otaAcceptedSequence : UInt32 := 0
  otaPendingSequence : Option UInt32 := none
  otaTrialPending : Bool := false
  otaSlotLen : UInt32 := 0
  ownerCount : UInt8 := 0
  role : Option OwnerRole := none
  nearbyOnly : Bool := false
  radio : Option StatusRadio := none
  interfacesUp : UInt8 := 0
  uptimeS : UInt32 := 0
  lastUpdate : Option LastUpdateStatus := none
  transfer : Option TransferStatus := none
  wifi : Option WifiStatus := none
  path : Option SessionPath := none
  image : Option RunningImage := none
  release : Option ReleaseVersion := none
deriving DecidableEq

def tagBoard : UInt8 := 0x01
def tagFirmware : UInt8 := 0x02
def tagReleaseKey : UInt8 := 0x03
def tagOta : UInt8 := 0x04
def tagOtaPending : UInt8 := 0x05
def tagOwners : UInt8 := 0x06
def tagRadio : UInt8 := 0x07
def tagInterfaces : UInt8 := 0x08
def tagUptime : UInt8 := 0x09
def tagLastUpdate : UInt8 := 0x0A
def tagTransfer : UInt8 := 0x0B
def tagWifi : UInt8 := 0x0C
def tagPath : UInt8 := 0x0D
def tagImage : UInt8 := 0x0E
def tagRelease : UInt8 := 0x0F
def wifiReady : UInt8 := 0x01
def flagNearbyOnly : UInt8 := 0x02
def flagTrial : UInt8 := 0x04

/-! ## Reading the values -/

/-- The byte at a place. -/
def byteAt (value : List UInt8) (place : Nat) : UInt8 :=
  value.getD place 0

def readBoard (value : List UInt8) : Option BoardTarget :=
  if value.length = 3 then
    some
      { platform := byteAt value 0
        mcu := byteAt value 1
        board := byteAt value 2 }
  else none

def readFirmware (value : List UInt8) : Option FirmwareVersion :=
  if value.length = 6 then
    some
      { major := be16 (slice value 0 2)
        minor := be16 (slice value 2 4)
        patch := be16 (value.drop 4) }
  else none

/-- What the field of the accepted sequence sets. -/
structure OtaState where
  acceptedSequence : UInt32
  slotLen : UInt32
  nearbyOnly : Bool
  trialPending : Bool
deriving DecidableEq, Repr

def readOta (value : List UInt8) : Option OtaState :=
  if value.length = 9 then
    some
      { acceptedSequence := be32 (slice value 0 4)
        slotLen := be32 (slice value 4 8)
        nearbyOnly := byteAt value 8 &&& flagNearbyOnly != 0
        trialPending := byteAt value 8 &&& flagTrial != 0 }
  else none

def readWord (value : List UInt8) : Option UInt32 :=
  if value.length = 4 then some (be32 value) else none

def readOwners (value : List UInt8) : Option (UInt8 × Option OwnerRole) :=
  if value.length = 2 then
    some (byteAt value 0, OwnerRole.fromByte (byteAt value 1))
  else none

def readRadio (value : List UInt8) : Option StatusRadio :=
  if value.length = 25 then
    some
      { frequencyHz := be32 (slice value 0 4)
        bandwidthHz := be32 (slice value 4 8)
        spreadingFactor := byteAt value 8
        codingRate := byteAt value 9
        txPowerDbm := (byteAt value 10).toInt8
        dutyTenthsPercent := be16 (slice value 11 13)
        maxTransmissionMs := be32 (slice value 13 17)
        hourUsedMs := be32 (slice value 17 21)
        hourBudgetMs := be32 (value.drop 21) }
  else none

def readByte (value : List UInt8) : Option UInt8 :=
  if value.length = 1 then some (byteAt value 0) else none

def readLastUpdate (value : List UInt8) : Option LastUpdateStatus :=
  if value.length = 22 then do
    let source ← UpdateSource.fromByte (byteAt value 4)
    let owner ← Bytes.ofList 16 (value.drop 6)
    some
      { sequence := be32 (slice value 0 4)
        source
        running := byteAt value 5 != 0
        owner }
  else none

def readTransfer (value : List UInt8) : Option TransferStatus :=
  if value.length = 9 then
    some
      { nextOffset := be32 (slice value 0 4)
        total := be32 (slice value 4 8)
        delta := byteAt value 8 != 0 }
  else none

def readWifi (value : List UInt8) : Option WifiStatus :=
  if value.length = 6 then do
    let ip ← Bytes.ofList 4 (value.drop 2)
    some
      { mode := byteAt value 0
        serviceReady := byteAt value 1 &&& wifiReady != 0
        ip }
  else none

def readPath (value : List UInt8) : Option SessionPath :=
  if value.length = 2 then
    some { interfaceId := byteAt value 0, hops := byteAt value 1 }
  else none

def readImage (value : List UInt8) : Option RunningImage :=
  if value.length = 36 then do
    let sha256 ← Bytes.ofList 32 (value.drop 4)
    some { len := be32 (slice value 0 4), sha256 }
  else none

namespace ManageStatus

/-- One field of the reply. -/
def readField (status : ManageStatus) (tag : UInt8) (value : List UInt8) :
    Option ManageStatus :=
  if tag = tagBoard then
    (readBoard value).map fun board => { status with board := some board }
  else if tag = tagFirmware then
    (readFirmware value).map fun version =>
      { status with firmware := some version }
  else if tag = tagReleaseKey then
    (Bytes.ofList 8 value).map fun key =>
      { status with releaseKeyId := some key }
  else if tag = tagOta then
    (readOta value).map fun ota =>
      { status with
        otaAcceptedSequence := ota.acceptedSequence
        otaSlotLen := ota.slotLen
        nearbyOnly := ota.nearbyOnly
        otaTrialPending := ota.trialPending }
  else if tag = tagOtaPending then
    (readWord value).map fun pending =>
      { status with otaPendingSequence := some pending }
  else if tag = tagOwners then
    (readOwners value).map fun owners =>
      { status with ownerCount := owners.1, role := owners.2 }
  else if tag = tagRadio then
    (readRadio value).map fun radio => { status with radio := some radio }
  else if tag = tagInterfaces then
    (readByte value).map fun up => { status with interfacesUp := up }
  else if tag = tagUptime then
    (readWord value).map fun uptime => { status with uptimeS := uptime }
  else if tag = tagLastUpdate then
    (readLastUpdate value).map fun update =>
      { status with lastUpdate := some update }
  else if tag = tagTransfer then
    (readTransfer value).map fun transfer =>
      { status with transfer := some transfer }
  else if tag = tagWifi then
    (readWifi value).map fun wifi => { status with wifi := some wifi }
  else if tag = tagPath then
    (readPath value).map fun path => { status with path := some path }
  else if tag = tagImage then
    (readImage value).map fun image => { status with image := some image }
  else if tag = tagRelease then
    (ReleaseVersion.new value).map fun release =>
      { status with release := some release }
  else some status

def decode (body : List UInt8) : Option ManageStatus :=
  tlvFold readField {} body

end ManageStatus

/-! ## Writing the values -/

def boardField (board : BoardTarget) : TlvField where
  tag := tagBoard
  value := [board.platform, board.mcu, board.board]
  short := by simp

def firmwareField (version : FirmwareVersion) : TlvField where
  tag := tagFirmware
  value := toBeBytes16 version.major ++ (toBeBytes16 version.minor ++ toBeBytes16 version.patch)
  short := by simp

def releaseKeyField (key : Bytes 8) : TlvField where
  tag := tagReleaseKey
  value := key.val
  short := by simp [key.property]

def pendingField (pending : UInt32) : TlvField where
  tag := tagOtaPending
  value := toBeBytes32 pending
  short := by simp

def radioField (radio : StatusRadio) : TlvField where
  tag := tagRadio
  value := toBeBytes32 radio.frequencyHz ++
    (toBeBytes32 radio.bandwidthHz ++
      (radio.spreadingFactor :: radio.codingRate ::
        radio.txPowerDbm.toUInt8 ::
          (toBeBytes16 radio.dutyTenthsPercent ++
            (toBeBytes32 radio.maxTransmissionMs ++
              (toBeBytes32 radio.hourUsedMs ++ toBeBytes32 radio.hourBudgetMs)))))
  short := by simp

def lastUpdateField (update : LastUpdateStatus) : TlvField where
  tag := tagLastUpdate
  value := toBeBytes32 update.sequence ++
    (update.source.toByte :: (if update.running then 1 else 0) :: update.owner.val)
  short := by simp [update.owner.property]

def transferField (transfer : TransferStatus) : TlvField where
  tag := tagTransfer
  value := toBeBytes32 transfer.nextOffset ++
    (toBeBytes32 transfer.total ++ [if transfer.delta then 1 else 0])
  short := by simp

def wifiField (wifi : WifiStatus) : TlvField where
  tag := tagWifi
  value := wifi.mode :: (if wifi.serviceReady then wifiReady else 0) :: wifi.ip.val
  short := by simp [wifi.ip.property]

def pathField (path : SessionPath) : TlvField where
  tag := tagPath
  value := [path.interfaceId, path.hops]
  short := by simp

def imageField (image : RunningImage) : TlvField where
  tag := tagImage
  value := toBeBytes32 image.len ++ image.sha256.val
  short := by simp [image.sha256.property]

def releaseField (release : ReleaseVersion) : TlvField where
  tag := tagRelease
  value := release.bytes
  short := Nat.lt_of_le_of_lt release.short (by decide)

/-- A field that is written when there is a value for it. -/
def optionalField {α : Type} (field : α → TlvField) (value : Option α) :
    List TlvField :=
  (value.map field).toList

namespace ManageStatus

def otaField (status : ManageStatus) : TlvField where
  tag := tagOta
  value := toBeBytes32 status.otaAcceptedSequence ++
    (toBeBytes32 status.otaSlotLen ++
      [(if status.nearbyOnly then flagNearbyOnly else 0) |||
        (if status.otaTrialPending then flagTrial else 0)])
  short := by simp

def ownersField (status : ManageStatus) : TlvField where
  tag := tagOwners
  value := [status.ownerCount, (status.role.map OwnerRole.toByte).getD 0]
  short := by simp

def interfacesField (status : ManageStatus) : TlvField where
  tag := tagInterfaces
  value := [status.interfacesUp]
  short := by simp

def uptimeField (status : ManageStatus) : TlvField where
  tag := tagUptime
  value := toBeBytes32 status.uptimeS
  short := by simp

/-- The fields in the order in which the encoder puts them. -/
def fields (status : ManageStatus) : List TlvField :=
  optionalField boardField status.board ++
  (optionalField firmwareField status.firmware ++
  (optionalField releaseKeyField status.releaseKeyId ++
  (status.otaField ::
  (optionalField pendingField status.otaPendingSequence ++
  (status.ownersField ::
  (optionalField radioField status.radio ++
  (status.interfacesField ::
  (status.uptimeField ::
  (optionalField lastUpdateField status.lastUpdate ++
  (optionalField transferField status.transfer ++
  (optionalField wifiField status.wifi ++
  (optionalField pathField status.path ++
  (optionalField imageField status.image ++
    optionalField releaseField status.release)))))))))))))

end ManageStatus

structure TlvWriter where
  out : List UInt8
  len : Nat

namespace TlvWriter

def put (writer : TlvWriter) (field : TlvField) :
    Except Frame.EncodeError Unit × TlvWriter :=
  let stop := writer.len + 2 + field.value.length
  if writer.out.length < stop then (.error .bufferTooSmall, writer)
  else
    (.ok (),
      { out := Frame.copyFrom writer.len field.wire writer.out
        len := stop })

/-- Put the fields in turn; the first that has no room ends it. -/
def putAll (writer : TlvWriter) :
    List TlvField → Except Frame.EncodeError Unit × TlvWriter
  | [] => (.ok (), writer)
  | field :: rest =>
      match writer.put field with
      | (.error error, writer) => (.error error, writer)
      | (.ok (), writer) => writer.putAll rest

end TlvWriter

namespace ManageStatus

/-- The result, and the buffer afterwards: a short one retains the fields
that had room. -/
def encode (status : ManageStatus) (out : List UInt8) :
    Except Frame.EncodeError Nat × List UInt8 :=
  match TlvWriter.putAll { out, len := 0 } status.fields with
  | (.error error, writer) => (.error error, writer.out)
  | (.ok (), writer) => (.ok writer.len, writer.out)

end ManageStatus

/-! ## The persisted baseline -/

def encodeBaseline (status : ManageStatus) : Option String :=
  match status.encode (List.replicate 512 0) with
  | (.error _, _) => none
  | (.ok len, out) => some (hexEncode (out.take len))

def decodeBaseline (text : String) : Option ManageStatus := do
  ManageStatus.decode (← hexDecode text)

end Ratspeak
