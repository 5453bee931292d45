import Ratspeak.Update.Status

/-!
# The status codec

What the decoder returns is determined by the last value of each known tag.
From this it follows at once that unknown fields and the order of the known
ones make no difference.  The encoder's fields are read back one by one, and
together they never fill the buffer, so that every status that was decoded
survives being encoded and stored.
-/

namespace Ratspeak

open Library

/-! ## Every value is read back -/

private theorem flags_read (nearby trial : Bool) :
    ((((if nearby then flagNearbyOnly else 0) |||
          (if trial then flagTrial else 0)) &&& flagNearbyOnly) != 0) =
        nearby ∧
      ((((if nearby then flagNearbyOnly else 0) |||
          (if trial then flagTrial else 0)) &&& flagTrial) != 0) =
        trial := by
  revert nearby trial
  decide

private theorem be32_last (word : UInt32) :
    be32 (toBeBytes32 word) = word := by
  simpa using be32_toBeBytes32 word []

private theorem be16_last (word : UInt16) :
    be16 (toBeBytes16 word) = word := by
  simpa using be16_toBeBytes16 word []

theorem readBoard_boardField (board : BoardTarget) :
    readBoard (boardField board).value = some board := rfl

theorem readFirmware_firmwareField (version : FirmwareVersion) :
    readFirmware (firmwareField version).value = some version := by
  have sized : (firmwareField version).value.length = 6 := by
    simp [firmwareField]
  have major : slice (firmwareField version).value 0 2 = toBeBytes16 version.major := rfl
  have minor : slice (firmwareField version).value 2 4 = toBeBytes16 version.minor := rfl
  have patch : (firmwareField version).value.drop 4 = toBeBytes16 version.patch := rfl
  rw [readFirmware, if_pos sized, major, minor, patch, be16_last, be16_last, be16_last]

theorem readOta_otaField (status : ManageStatus) :
    readOta status.otaField.value =
      some
        { acceptedSequence := status.otaAcceptedSequence
          slotLen := status.otaSlotLen
          nearbyOnly := status.nearbyOnly
          trialPending := status.otaTrialPending } := by
  have sized : status.otaField.value.length = 9 := by
    simp [ManageStatus.otaField]
  have accepted : slice status.otaField.value 0 4 =
      toBeBytes32 status.otaAcceptedSequence := rfl
  have slot : slice status.otaField.value 4 8 = toBeBytes32 status.otaSlotLen := rfl
  have flags : byteAt status.otaField.value 8 =
      (if status.nearbyOnly then flagNearbyOnly else 0) |||
        (if status.otaTrialPending then flagTrial else 0) := rfl
  have set := flags_read status.nearbyOnly status.otaTrialPending
  rw [readOta, if_pos sized, accepted, slot, flags, set.1, set.2, be32_last, be32_last]

theorem readWord_toBeBytes32 (word : UInt32) :
    readWord (toBeBytes32 word) = some word := by
  rw [readWord, if_pos (length_toBeBytes32 word), be32_last]

theorem readOwners_ownersField (status : ManageStatus) :
    readOwners status.ownersField.value =
      some (status.ownerCount, status.role) := by
  have role : OwnerRole.fromByte
      ((status.role.map OwnerRole.toByte).getD 0) = status.role := by
    cases status.role with
    | none => rfl
    | some role =>
        cases role with
        | primary => rfl
        | helper => rfl
  have bytes : byteAt status.ownersField.value 1 =
      (status.role.map OwnerRole.toByte).getD 0 := rfl
  have sized : status.ownersField.value.length = 2 := rfl
  rw [readOwners, if_pos sized, bytes, role]
  rfl

theorem readRadio_radioField (radio : StatusRadio) :
    readRadio (radioField radio).value = some radio := by
  have sized : (radioField radio).value.length = 25 := by
    simp [radioField]
  have frequency : slice (radioField radio).value 0 4 = toBeBytes32 radio.frequencyHz := rfl
  have bandwidth : slice (radioField radio).value 4 8 = toBeBytes32 radio.bandwidthHz := rfl
  have duty : slice (radioField radio).value 11 13 = toBeBytes16 radio.dutyTenthsPercent := rfl
  have longest : slice (radioField radio).value 13 17 =
      toBeBytes32 radio.maxTransmissionMs := rfl
  have used : slice (radioField radio).value 17 21 = toBeBytes32 radio.hourUsedMs := rfl
  have budget : (radioField radio).value.drop 21 = toBeBytes32 radio.hourBudgetMs := rfl
  rw [readRadio, if_pos sized, frequency, bandwidth, duty, longest, used,
    budget, be32_last, be32_last, be16_last, be32_last, be32_last,
    be32_last]
  rfl

theorem readByte_interfacesField (status : ManageStatus) :
    readByte status.interfacesField.value = some status.interfacesUp :=
  rfl

theorem readLastUpdate_lastUpdateField (update : LastUpdateStatus) :
    readLastUpdate (lastUpdateField update).value = some update := by
  have sized : (lastUpdateField update).value.length = 22 := by
    simp [lastUpdateField, update.owner.property]
  have sequence : slice (lastUpdateField update).value 0 4 = toBeBytes32 update.sequence := rfl
  have sourceByte : byteAt (lastUpdateField update).value 4 =
      update.source.toByte := rfl
  have runningByte : byteAt (lastUpdateField update).value 5 =
      if update.running then 1 else 0 := rfl
  have owner : (lastUpdateField update).value.drop 6 =
      update.owner.val := rfl
  have source : UpdateSource.fromByte update.source.toByte =
      some update.source := by
    cases update.source with
    | link => rfl
    | root => rfl
    | usb => rfl
  have running : ((if update.running then 1 else 0 : UInt8) != 0) =
      update.running := by
    cases update.running with
    | false => rfl
    | true => rfl
  rw [readLastUpdate, if_pos sized, sequence, sourceByte, runningByte,
    owner, source, running, Bytes.ofList_val, be32_last]
  rfl

theorem readTransfer_transferField (transfer : TransferStatus) :
    readTransfer (transferField transfer).value = some transfer := by
  have sized : (transferField transfer).value.length = 9 := by
    simp [transferField]
  have next : slice (transferField transfer).value 0 4 = toBeBytes32 transfer.nextOffset := rfl
  have total : slice (transferField transfer).value 4 8 = toBeBytes32 transfer.total := rfl
  have deltaByte : byteAt (transferField transfer).value 8 =
      if transfer.delta then 1 else 0 := rfl
  have delta : ((if transfer.delta then 1 else 0 : UInt8) != 0) =
      transfer.delta := by
    cases transfer.delta with
    | false => rfl
    | true => rfl
  rw [readTransfer, if_pos sized, next, total, deltaByte, delta, be32_last, be32_last]

theorem readWifi_wifiField (wifi : WifiStatus) :
    readWifi (wifiField wifi).value = some wifi := by
  have sized : (wifiField wifi).value.length = 6 := by
    simp [wifiField, wifi.ip.property]
  have readyByte : byteAt (wifiField wifi).value 1 =
      if wifi.serviceReady then wifiReady else 0 := rfl
  have ip : (wifiField wifi).value.drop 2 = wifi.ip.val := rfl
  have ready : ((if wifi.serviceReady then wifiReady else 0) &&&
      wifiReady != 0) = wifi.serviceReady := by
    cases wifi.serviceReady with
    | false => decide
    | true => decide
  rw [readWifi, if_pos sized, readyByte, ip, ready, Bytes.ofList_val]
  rfl

theorem readPath_pathField (path : SessionPath) :
    readPath (pathField path).value = some path := rfl

theorem readImage_imageField (image : RunningImage) :
    readImage (imageField image).value = some image := by
  have sized : (imageField image).value.length = 36 := by
    simp [imageField, image.sha256.property]
  have len : slice (imageField image).value 0 4 = toBeBytes32 image.len := rfl
  have digest : (imageField image).value.drop 4 = image.sha256.val := rfl
  rw [readImage, if_pos sized, len, digest, Bytes.ofList_val, be32_last]
  rfl

/-- Only the default label cannot be read back. -/
theorem new_releaseField {release : ReleaseVersion} (named : release.bytes ≠ []) :
    ReleaseVersion.new (releaseField release).value = some release := by
  have accepted : release.bytes ≠ [] ∧
      release.bytes.length ≤ releaseVersionMax ∧ release.bytes.all isAsciiGraphic = true :=
    ⟨named, release.short, release.graphic⟩
  rw [ReleaseVersion.new]
  exact dif_pos accepted

theorem bytes_ne_nil_of_new {source : List UInt8} {release : ReleaseVersion}
    (made : ReleaseVersion.new source = some release) :
    release.bytes ≠ [] := by
  unfold ReleaseVersion.new at made
  split at made
  next accepted =>
    cases made
    exact accepted.1
  next =>
    cases made

/-! ## The status of the last values -/

namespace ManageStatus

/-- The status that the last value of each tag determines. -/
def ofLast (last : LastValues) : ManageStatus :=
  let ota := (last tagOta).bind readOta
  let owners := (last tagOwners).bind readOwners
  { board := (last tagBoard).bind readBoard
    firmware := (last tagFirmware).bind readFirmware
    releaseKeyId := (last tagReleaseKey).bind (Bytes.ofList 8)
    otaAcceptedSequence := ota.elim 0 OtaState.acceptedSequence
    otaPendingSequence := (last tagOtaPending).bind readWord
    otaTrialPending := ota.elim false OtaState.trialPending
    otaSlotLen := ota.elim 0 OtaState.slotLen
    ownerCount := owners.elim 0 Prod.fst
    role := owners.elim none Prod.snd
    nearbyOnly := ota.elim false OtaState.nearbyOnly
    radio := (last tagRadio).bind readRadio
    interfacesUp := ((last tagInterfaces).bind readByte).getD 0
    uptimeS := ((last tagUptime).bind readWord).getD 0
    lastUpdate := (last tagLastUpdate).bind readLastUpdate
    transfer := (last tagTransfer).bind readTransfer
    wifi := (last tagWifi).bind readWifi
    path := (last tagPath).bind readPath
    image := (last tagImage).bind readImage
    release := (last tagRelease).bind ReleaseVersion.new }

def validField (tag : UInt8) (value : List UInt8) : Bool :=
  (readField {} tag value).isSome

/-! ## Slots -/

def knownTags : List UInt8 :=
  [tagBoard, tagFirmware, tagReleaseKey, tagOta, tagOtaPending, tagOwners,
    tagRadio, tagInterfaces, tagUptime, tagLastUpdate, tagTransfer,
    tagWifi, tagPath, tagImage, tagRelease]

theorem readField_of_unknown (status : ManageStatus) {tag : UInt8}
    (unknown : tag ∉ knownTags) (value : List UInt8) :
    readField status tag value = some status := by
  simp only [knownTags, List.mem_cons, List.not_mem_nil, or_false, not_or] at unknown
  simp only [readField, unknown, if_false]

/-- Only the known tags are looked at. -/
theorem ofLast_congr {first second : LastValues}
    (same : ∀ tag ∈ knownTags, first tag = second tag) :
    ofLast first = ofLast second := by
  simp only [knownTags, List.forall_mem_cons] at same
  simp only [ofLast, same]

private theorem settles {α : Type} {read : Option α}
    {set blank : α → ManageStatus} {result : ManageStatus}
    (sets : ∀ value, read = some value → set value = result) :
    read.map set =
      if (read.map blank).isSome then some result else none := by
  cases found : read with
  | none => rfl
  | some value =>
      rw [Option.map_some, sets value found]
      rfl

/-- A field of the reply replaces the last value of its tag. -/
theorem slotted : Slotted readField ofLast validField := by
  constructor
  intro last tag value
  by_cases board : tag = tagBoard
  · subst tag
    refine @settles _ (readBoard value) _ _ _ ?_
    intro found read
    simp +decide [ofLast, read]
  by_cases firmware : tag = tagFirmware
  · subst tag
    refine @settles _ (readFirmware value) _ _ _ ?_
    intro found read
    simp +decide [ofLast, read]
  by_cases releaseKey : tag = tagReleaseKey
  · subst tag
    refine @settles _ (Bytes.ofList 8 value) _ _ _ ?_
    intro found read
    simp +decide [ofLast, read]
  by_cases ota : tag = tagOta
  · subst tag
    refine @settles _ (readOta value) _ _ _ ?_
    intro found read
    simp +decide [ofLast, read]
  by_cases pending : tag = tagOtaPending
  · subst tag
    refine @settles _ (readWord value) _ _ _ ?_
    intro found read
    simp +decide [ofLast, read]
  by_cases owners : tag = tagOwners
  · subst tag
    refine @settles _ (readOwners value) _ _ _ ?_
    intro found read
    simp +decide [ofLast, read]
  by_cases radio : tag = tagRadio
  · subst tag
    refine @settles _ (readRadio value) _ _ _ ?_
    intro found read
    simp +decide [ofLast, read]
  by_cases interfaces : tag = tagInterfaces
  · subst tag
    refine @settles _ (readByte value) _ _ _ ?_
    intro found read
    simp +decide [ofLast, read]
  by_cases uptime : tag = tagUptime
  · subst tag
    refine @settles _ (readWord value) _ _ _ ?_
    intro found read
    simp +decide [ofLast, read]
  by_cases update : tag = tagLastUpdate
  · subst tag
    refine @settles _ (readLastUpdate value) _ _ _ ?_
    intro found read
    simp +decide [ofLast, read]
  by_cases transfer : tag = tagTransfer
  · subst tag
    refine @settles _ (readTransfer value) _ _ _ ?_
    intro found read
    simp +decide [ofLast, read]
  by_cases wifi : tag = tagWifi
  · subst tag
    refine @settles _ (readWifi value) _ _ _ ?_
    intro found read
    simp +decide [ofLast, read]
  by_cases path : tag = tagPath
  · subst tag
    refine @settles _ (readPath value) _ _ _ ?_
    intro found read
    simp +decide [ofLast, read]
  by_cases image : tag = tagImage
  · subst tag
    refine @settles _ (readImage value) _ _ _ ?_
    intro found read
    simp +decide [ofLast, read]
  by_cases release : tag = tagRelease
  · subst tag
    refine @settles _ (ReleaseVersion.new value) _ _ _ ?_
    intro found read
    simp +decide [ofLast, read]
  have unknown : tag ∉ knownTags := by
    simp only [knownTags, List.mem_cons, List.not_mem_nil, or_false]
    tauto
  have unseen : ofLast last =
      ofLast (Function.update last tag (some value)) := by
    apply ofLast_congr
    intro known among
    refine (Function.update_of_ne ?_ _ _).symm
    intro same
    rw [same] at among
    exact unknown among
  rw [validField, readField_of_unknown _ unknown, readField_of_unknown _ unknown, ← unseen]
  rfl

/-! ## The encoder's fields -/

theorem lastValues_optionalField {α : Type} {field : α → TlvField}
    {tag : UInt8} (tagged : ∀ value, (field value).tag = tag)
    (last : LastValues) (value : Option α) (looked : UInt8) :
    lastValues last (optionalField field value) looked =
      if looked = tag then
        (value.map fun value => (field value).value).or (last looked)
      else last looked := by
  cases value with
  | none => simp [optionalField, lastValues]
  | some value => simp [optionalField, lastValues, Function.update_apply, tagged]

private theorem read_optionalField {α : Type} {field : α → TlvField}
    {read : List UInt8 → Option α}
    (reads : ∀ value, read (field value).value = some value) (value : Option α) :
    (value.map fun value => (field value).value).bind read = value := by
  cases value with
  | none => rfl
  | some value => exact reads value

/-- What the last values of the encoder's fields are. -/
structure Spelled (status : ManageStatus) (last : LastValues) : Prop where
  board : last tagBoard = status.board.map fun board => (boardField board).value
  firmware : last tagFirmware = status.firmware.map fun version => (firmwareField version).value
  releaseKey : last tagReleaseKey =
    status.releaseKeyId.map fun key => (releaseKeyField key).value
  ota : last tagOta = some status.otaField.value
  pending : last tagOtaPending =
    status.otaPendingSequence.map fun pending =>
      (pendingField pending).value
  owners : last tagOwners = some status.ownersField.value
  radio : last tagRadio = status.radio.map fun radio => (radioField radio).value
  interfaces : last tagInterfaces = some status.interfacesField.value
  uptime : last tagUptime = some status.uptimeField.value
  update : last tagLastUpdate =
    status.lastUpdate.map fun update => (lastUpdateField update).value
  transfer : last tagTransfer =
    status.transfer.map fun transfer => (transferField transfer).value
  wifi : last tagWifi = status.wifi.map fun wifi => (wifiField wifi).value
  path : last tagPath = status.path.map fun path => (pathField path).value
  image : last tagImage = status.image.map fun image => (imageField image).value
  release : last tagRelease = status.release.map fun release => (releaseField release).value

theorem spelled_fields (status : ManageStatus) :
    Spelled status (lastValues (fun _ => none) status.fields) := by
  constructor
  all_goals
    simp +decide [fields, lastValues_append, lastValues, otaField,
      ownersField, interfacesField, uptimeField,
      @lastValues_optionalField _ boardField tagBoard fun _ => rfl,
      @lastValues_optionalField _ firmwareField tagFirmware fun _ => rfl,
      @lastValues_optionalField _ releaseKeyField tagReleaseKey fun _ => rfl,
      @lastValues_optionalField _ pendingField tagOtaPending fun _ => rfl,
      @lastValues_optionalField _ radioField tagRadio fun _ => rfl,
      @lastValues_optionalField _ lastUpdateField tagLastUpdate fun _ => rfl,
      @lastValues_optionalField _ transferField tagTransfer fun _ => rfl,
      @lastValues_optionalField _ wifiField tagWifi fun _ => rfl,
      @lastValues_optionalField _ pathField tagPath fun _ => rfl,
      @lastValues_optionalField _ imageField tagImage fun _ => rfl,
      @lastValues_optionalField _ releaseField tagRelease fun _ => rfl]

/-- No label is empty. -/
def Named (status : ManageStatus) : Prop :=
  ∀ release ∈ status.release, release.bytes ≠ []

theorem named_ofLast (last : LastValues) : (ofLast last).Named := by
  intro release among
  obtain ⟨source, _, made⟩ := Option.bind_eq_some_iff.mp among
  exact bytes_ne_nil_of_new made

/-- The last values of the encoder's fields determine the status. -/
theorem ofLast_of_spelled {status : ManageStatus} {last : LastValues}
    (spelled : Spelled status last) (named : status.Named) :
    ofLast last = status := by
  have release : (status.release.map fun release =>
      (releaseField release).value).bind ReleaseVersion.new =
        status.release := by
    cases label : status.release with
    | none => rfl
    | some release => exact new_releaseField (named release label)
  have key : ∀ key : Bytes 8,
      Bytes.ofList 8 (releaseKeyField key).value = some key :=
    fun key => Bytes.ofList_val key
  have pending : ∀ word, readWord (pendingField word).value = some word :=
    readWord_toBeBytes32
  have uptime : readWord status.uptimeField.value = some status.uptimeS :=
    readWord_toBeBytes32 status.uptimeS
  simp only [ofLast, spelled.board, spelled.firmware, spelled.releaseKey,
    spelled.ota, spelled.pending, spelled.owners, spelled.radio,
    spelled.interfaces, spelled.uptime, spelled.update, spelled.transfer,
    spelled.wifi, spelled.path, spelled.image, spelled.release,
    read_optionalField readBoard_boardField,
    read_optionalField readFirmware_firmwareField,
    read_optionalField key, read_optionalField pending,
    read_optionalField readRadio_radioField,
    read_optionalField readLastUpdate_lastUpdateField,
    read_optionalField readTransfer_transferField,
    read_optionalField readWifi_wifiField,
    read_optionalField readPath_pathField,
    read_optionalField readImage_imageField,
    release, Option.bind_some, readOta_otaField, readOwners_ownersField,
    readByte_interfacesField, uptime, Option.elim_some,
    Option.getD_some]

private theorem all_optionalField {α : Type} {field : α → TlvField}
    {value : Option α} {test : TlvField → Bool}
    (passes : ∀ held ∈ value, test (field held) = true) :
    (optionalField field value).all test = true := by
  cases value with
  | none => rfl
  | some held => simpa [optionalField] using passes held rfl

/-- The decoder refuses none of the encoder's fields. -/
theorem valid_fields {status : ManageStatus} (named : status.Named) :
    status.fields.all
      (fun field => validField field.tag field.value) = true := by
  simp only [fields, List.all_append, List.all_cons, Bool.and_eq_true]
  refine ⟨?_, ?_, ?_, ?_, ?_, ?_, ?_, ?_, ?_, ?_, ?_, ?_, ?_, ?_, ?_⟩
  · refine all_optionalField ?_
    intro board _
    change validField tagBoard (boardField board).value = true
    simp +decide [validField, readField, readBoard_boardField]
  · refine all_optionalField ?_
    intro version _
    change validField tagFirmware (firmwareField version).value = true
    simp +decide [validField, readField, readFirmware_firmwareField]
  · refine all_optionalField ?_
    intro key _
    change validField tagReleaseKey key.val = true
    simp +decide [validField, readField, Bytes.ofList_val]
  · change validField tagOta status.otaField.value = true
    simp +decide [validField, readField, readOta_otaField]
  · refine all_optionalField ?_
    intro pending _
    change validField tagOtaPending (toBeBytes32 pending) = true
    simp +decide [validField, readField, readWord_toBeBytes32]
  · change validField tagOwners status.ownersField.value = true
    simp +decide [validField, readField, readOwners_ownersField]
  · refine all_optionalField ?_
    intro radio _
    change validField tagRadio (radioField radio).value = true
    simp +decide [validField, readField, readRadio_radioField]
  · change validField tagInterfaces status.interfacesField.value = true
    simp +decide [validField, readField, readByte_interfacesField]
  · change validField tagUptime (toBeBytes32 status.uptimeS) = true
    simp +decide [validField, readField, readWord_toBeBytes32]
  · refine all_optionalField ?_
    intro update _
    change validField tagLastUpdate (lastUpdateField update).value = true
    simp +decide [validField, readField, readLastUpdate_lastUpdateField]
  · refine all_optionalField ?_
    intro transfer _
    change validField tagTransfer (transferField transfer).value = true
    simp +decide [validField, readField, readTransfer_transferField]
  · refine all_optionalField ?_
    intro wifi _
    change validField tagWifi (wifiField wifi).value = true
    simp +decide [validField, readField, readWifi_wifiField]
  · refine all_optionalField ?_
    intro path _
    change validField tagPath (pathField path).value = true
    simp +decide [validField, readField, readPath_pathField]
  · refine all_optionalField ?_
    intro image _
    change validField tagImage (imageField image).value = true
    simp +decide [validField, readField, readImage_imageField]
  · refine all_optionalField ?_
    intro release held
    change validField tagRelease (releaseField release).value = true
    simp +decide [validField, readField, new_releaseField (named release held)]

theorem decode_tlvBytes (fields : List TlvField) :
    decode (tlvBytes fields) =
      if fields.all (fun field => validField field.tag field.value) then
        some (ofLast (lastValues (fun _ => none) fields))
      else none :=
  slotted.tlvFold_view (fun _ => none) fields

theorem decode_fields {status : ManageStatus} (named : status.Named) :
    decode (tlvBytes status.fields) = some status := by
  rw [decode_tlvBytes, valid_fields named, if_pos rfl,
    ofLast_of_spelled (spelled_fields status) named]

/-- A status that was decoded has no empty label. -/
theorem named_of_decode {body : List UInt8} {status : ManageStatus}
    (decoded : decode body = some status) : status.Named := by
  obtain ⟨fields, rfl⟩ := fields_of_tlvFold decoded
  rw [decode_tlvBytes] at decoded
  split at decoded
  next =>
    cases decoded
    exact named_ofLast _
  next =>
    cases decoded

/-! ## The buffer -/

private theorem length_optionalField {α : Type} {field : α → TlvField}
    {bound : Nat} (bounded : ∀ value, (field value).value.length ≤ bound) (value : Option α) :
    ((optionalField field value).map
      fun field => 2 + field.value.length).sum ≤ 2 + bound := by
  cases value with
  | none => exact Nat.zero_le _
  | some held =>
      have small := bounded held
      simp [optionalField]
      omega

/-- However many fields a status has, they fit the buffer of a baseline. -/
theorem length_fields_le (status : ManageStatus) :
    (tlvBytes status.fields).length ≤ 191 := by
  have board := @length_optionalField _ boardField 3
    (fun board => by simp [boardField]) status.board
  have firmware := @length_optionalField _ firmwareField 6
    (fun firmware => by simp [firmwareField]) status.firmware
  have key := @length_optionalField _ releaseKeyField 8
    (fun key => by simp [releaseKeyField, key.property]) status.releaseKeyId
  have pending := @length_optionalField _ pendingField 4
    (fun pending => by simp [pendingField]) status.otaPendingSequence
  have radio := @length_optionalField _ radioField 25
    (fun radio => by simp [radioField]) status.radio
  have update := @length_optionalField _ lastUpdateField 22
    (fun update => by simp [lastUpdateField, update.owner.property]) status.lastUpdate
  have transfer := @length_optionalField _ transferField 9
    (fun transfer => by simp [transferField]) status.transfer
  have wifi := @length_optionalField _ wifiField 6
    (fun wifi => by simp [wifiField, wifi.ip.property]) status.wifi
  have path := @length_optionalField _ pathField 2 (fun path => by simp [pathField]) status.path
  have image := @length_optionalField _ imageField 36
    (fun image => by simp [imageField, image.sha256.property]) status.image
  have release := @length_optionalField _ releaseField 24
    (fun release => release.short) status.release
  have ota : status.otaField.value.length = 9 := by
    simp [otaField]
  have owners : status.ownersField.value.length = 2 := rfl
  have interfaces : status.interfacesField.value.length = 1 := rfl
  have uptime : status.uptimeField.value.length = 4 := by
    simp [uptimeField]
  simp only [length_tlvBytes, fields, List.map_append, List.map_cons,
    List.sum_append, List.sum_cons, ota, owners, interfaces, uptime]
  omega

end ManageStatus

namespace TlvWriter

private theorem copyFrom_copyFrom {start : Nat}
    {first second buffer : List UInt8} (inside : start ≤ buffer.length) :
    Frame.copyFrom (start + first.length) second
        (Frame.copyFrom start first buffer) =
      Frame.copyFrom start (first ++ second) buffer := by
  have reached : (buffer.take start ++ first).length =
      start + first.length := by
    rw [List.length_append, List.length_take_of_le inside]
  rw [Frame.copyFrom.eq_1 start first, Frame.copyFrom_append reached,
    Frame.copyFrom, List.drop_drop, List.length_append,
    List.append_assoc, List.append_assoc, List.append_assoc,
    List.append_assoc, Nat.add_assoc]

/-- Fields that have room are put one behind the other. -/
theorem putAll_eq {fields : List TlvField} {writer : TlvWriter}
    (room : writer.len + (tlvBytes fields).length ≤ writer.out.length) :
    writer.putAll fields =
      (.ok (),
        { out := Frame.copyFrom writer.len (tlvBytes fields) writer.out
          len := writer.len + (tlvBytes fields).length }) := by
  induction fields generalizing writer with
  | nil =>
      have unchanged : Frame.copyFrom writer.len [] writer.out =
          writer.out := by
        rw [Frame.copyFrom, List.append_nil, List.length_nil,
          Nat.add_zero, List.take_append_drop]
      rw [putAll, tlvBytes, List.flatMap_nil, unchanged]
      rfl
  | cons field rest ih =>
      have wire : field.wire.length = 2 + field.value.length := by
        simp only [TlvField.wire, List.length_cons]
        omega
      have whole : tlvBytes (field :: rest) = field.wire ++ tlvBytes rest := List.flatMap_cons
      rw [whole, List.length_append] at room
      have fits : ¬writer.out.length <
          writer.len + 2 + field.value.length := by
        omega
      have put : writer.put field =
          (.ok (),
            { out := Frame.copyFrom writer.len field.wire writer.out
              len := writer.len + field.wire.length }) := by
        rw [TlvWriter.put, wire, if_neg fits, Nat.add_assoc]
      have kept : (Frame.copyFrom writer.len field.wire
          writer.out).length = writer.out.length := by
        simp only [Frame.copyFrom, List.length_append, List.length_take, List.length_drop]
        omega
      have later := @ih
        { out := Frame.copyFrom writer.len field.wire writer.out
          len := writer.len + field.wire.length }
        (by rw [kept]; dsimp only; omega)
      rw [putAll, put]
      dsimp only
      rw [later]
      dsimp only
      rw [copyFrom_copyFrom (by omega), whole, List.length_append,
        Nat.add_assoc]

end TlvWriter

namespace ManageStatus

theorem encode_eq (status : ManageStatus) {out : List UInt8} (room : 191 ≤ out.length) :
    status.encode out =
      (.ok (tlvBytes status.fields).length,
        tlvBytes status.fields ++
          out.drop (tlvBytes status.fields).length) := by
  have small := length_fields_le status
  have put := @TlvWriter.putAll_eq status.fields { out, len := 0 } (by
    dsimp only
    omega)
  rw [encode, put]
  dsimp only
  rw [Frame.copyFrom_zero, Nat.zero_add]

theorem decode_encode {status : ManageStatus} (named : status.Named)
    {out : List UInt8} (room : 191 ≤ out.length) :
    ∃ len written, status.encode out = (.ok len, written) ∧
      decode (written.take len) = some status := by
  refine ⟨_, _, encode_eq status room, ?_⟩
  rw [List.take_left]
  exact decode_fields named

theorem decodeBaseline_encodeBaseline {status : ManageStatus} (named : status.Named) :
    ∃ text, encodeBaseline status = some text ∧
      decodeBaseline text = some status := by
  have room : 191 ≤ (List.replicate 512 (0 : UInt8)).length := by
    rw [List.length_replicate]
    decide
  refine ⟨_, by rw [encodeBaseline, encode_eq status room], ?_⟩
  rw [decodeBaseline, hexDecode_hexEncode, List.take_left]
  exact decode_fields named

/-- Every status that is decoded is encoded into 512 bytes and decoded again,
also as the baseline that an update stores.  A body that is decoded consists
of fields; a field with an unknown tag anywhere among them changes nothing,
nor does any order of the fields that leaves those with equal tags in their
order, hence any order of fields with distinct tags. -/
theorem statusCodec :
    (∀ body status, decode body = some status →
      (∀ out : List UInt8, out.length = 512 →
        ∃ len written, status.encode out = (.ok len, written) ∧
          decode (written.take len) = some status) ∧
      (∃ text, encodeBaseline status = some text ∧ decodeBaseline text = some status) ∧
      ∃ fields, body = tlvBytes fields) ∧
    (∀ front back field, field.tag ∉ knownTags →
      decode (tlvBytes (front ++ field :: back)) = decode (tlvBytes (front ++ back))) ∧
    (∀ fields others, SameOrder fields others →
      decode (tlvBytes others) = decode (tlvBytes fields)) ∧
    ∀ fields others : List TlvField,
      (fields.map TlvField.tag).Nodup → fields.Perm others →
        decode (tlvBytes others) = decode (tlvBytes fields) := by
  refine ⟨?_, ?_, ?_, ?_⟩
  · intro body status decoded
    have named := named_of_decode decoded
    refine ⟨?_, decodeBaseline_encodeBaseline named, fields_of_tlvFold decoded⟩
    intro out sized
    exact decode_encode named (by omega)
  · intro front back field unknown
    have fine : validField field.tag field.value = true := by
      rw [validField, readField_of_unknown _ unknown]
      rfl
    refine slotted.tlvFold_insert (fun _ => none) ?_ fine
    intro first second same
    apply ofLast_congr
    intro tag known
    refine same tag ?_
    rintro rfl
    exact unknown known
  · intro fields others same
    exact slotted.tlvFold_sameOrder (fun _ => none) same
  · intro fields others distinct permuted
    exact slotted.tlvFold_sameOrder (fun _ => none)
      (sameOrder_of_perm permuted distinct)

end ManageStatus

end Ratspeak
