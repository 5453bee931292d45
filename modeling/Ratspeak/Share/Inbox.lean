import Ratspeak.Library.Attempts
import Ratspeak.Library.Decimal
import Ratspeak.Library.JsonText
import Ratspeak.Library.Runs
import Ratspeak.Library.Text
import Mathlib.Data.List.Infix
import Mathlib.Data.List.Nodup

/-!
# Drafts that other applications share

Texts and photos that are shared with the application wait in an inbox, which
is stored as one JSON text.  Every operation works on a copy of the inbox,
which takes its place only after the text was stored.

The reader of the JSON text is given; the text is written here.
-/

namespace Ratspeak.Share

open Library Library.Json

def maxTextBytes : Nat := 64 * 1024
def maxItems : Nat := 8
def maxStoreBytes : Nat := 4 * 1024 * 1024
def maxImageBytes : Nat := 128000000
def maxReceipts : Nat := 64

structure Image where
  name : String
  mime : String
  size : Nat
  deriving DecidableEq

structure Item where
  id : String
  revision : String
  text : String
  identity : Option String
  recipient : Option String
  sendAttempted : Bool
  image : Option Image
  deriving DecidableEq

structure Inbox where
  version : Nat
  revision : Nat
  items : List Item
  /-- The identifiers of what was discarded, so that it is not taken again. -/
  receipts : List String
  deriving DecidableEq

def Inbox.default : Inbox := ⟨1, 0, [], []⟩

/-- What an edit is asked to do. -/
structure TextShareEdit where
  id : String
  revision : String
  operation : String
  recipient : Option String
  text : Option String

/-! ## Validation -/

def validHash (value : String) : Bool :=
  value.utf8ByteSize = 32 && value.toList.all fun char =>
    char.isDigit || ('a' ≤ char && char ≤ 'f')

def Image.validate (image : Image) : Except String Unit :=
  refuseIf
    (image.size = 0 ∨ image.size > maxImageBytes ∨ image.name = "" ∨
      image.name.utf8ByteSize > 255 ∨
      image.name.toList.any (fun char =>
        isControl char || char = '/' || char = Char.ofNat 92) ∨
      ¬"image/".toList <+: image.mime.toList ∨
      image.mime.utf8ByteSize > 100 ∨
      image.mime.toList.any fun char => isWhitespace char || isControl char)
    "Invalid shared image."

def validateText (text : String) : Except String Unit := do
  refuseIf (trim text = "") "Nothing to share. Choose some text or a link."
  refuseIf (text.utf8ByteSize > maxTextBytes) "Shared text is too large (maximum 64 KiB)."
  refuseIf (text.toList.contains (Char.ofNat 0))
    "Shared text contains an unsupported character."

/-- A photo may come with blank text. -/
def validateContent (text : String) :
    Option Image → Except String Unit
  | some image => do
      image.validate
      if trim text = "" ∧ text.utf8ByteSize ≤ maxTextBytes then .ok ()
      else validateText text
  | none => validateText text

/-- The body of a text with its title. -/
def titled (text subject : String) : String :=
  if trim subject = "" ∨ (trim subject).toList <:+: text.toList then text
  else trim subject ++ "\n\n" ++ text

def normalize (text subject : String) : Except String String := do
  validateText text
  refuseIf (subject.utf8ByteSize > 2048) "The shared title is too large."
  validateText (titled text subject)
  return titled text subject

/-! ## The stored text -/

def Image.encode (image : Image) : List Char :=
  object [("name", string image.name), ("mime", string image.mime),
    ("size", natural image.size)]

def optionalString : Option String → List Char
  | some value => string value
  | none => "null".toList

def Item.encode (item : Item) : List Char :=
  object ([("id", string item.id), ("revision", string item.revision),
    ("text", string item.text), ("identity", optionalString item.identity),
    ("recipient", optionalString item.recipient),
    ("send_attempted", boolean item.sendAttempted)] ++
      optional "image" (item.image.map Image.encode))

/-- What `serde_json` writes for an inbox. -/
def Inbox.encode (inbox : Inbox) : List Char :=
  object [("version", natural inbox.version),
    ("revision", natural inbox.revision),
    ("items", array (inbox.items.map Item.encode)),
    ("receipts", array (inbox.receipts.map string))]

/-- The reader of a stored text. -/
abbrev Reader := List Char → Option Inbox

/-- One item of a stored inbox, with the identifiers before it. -/
def checkItem (inbox : Inbox) (ids : List String) (item : Item) :
    Except String (List String) := do
  validateContent item.text item.image
  let revision ← okOr (parseU64 item.revision) "Invalid shared draft revision."
  refuseIf
    (validHash item.id = false ∨ item.id ∈ ids ∨ revision = 0 ∨
      revision > inbox.revision ∨ revision.repr ≠ item.revision ∨
      item.identity.any (fun value => !validHash value) ∨
      item.recipient.any (fun value => !validHash value) ∨
      item.identity.isSome ≠ item.recipient.isSome ∨
      item.sendAttempted ∧ item.identity = none)
    "Shared drafts storage has an invalid item."
  return item.id :: ids

def Inbox.decode (fromStr : Reader) (raw : List Char) :
    Except String Inbox :=
  if raw = [] then .ok Inbox.default
  else do
    refuseIf (textSize raw > maxStoreBytes) "Shared drafts storage is too large."
    let inbox ← okOr (fromStr raw) "Shared drafts storage is unreadable."
    refuseIf
      (inbox.version ≠ 1 ∨ inbox.items.length > maxItems ∨ inbox.receipts.length > maxReceipts)
      "Shared drafts storage has an unsupported format."
    let _ ← inbox.items.foldlM (checkItem inbox) []
    refuseIf (inbox.receipts.any fun id => !validHash id)
      "Invalid share receipt."
    return inbox

/-! ## Operations -/

namespace Inbox

/-- The next revision, with the inbox that has used it. -/
def nextRevision (inbox : Inbox) : Except String (Inbox × String) :=
  if inbox.revision < u64Max then
    .ok ({ inbox with revision := inbox.revision + 1 }, (inbox.revision + 1).repr)
  else .error "Shared draft revision exhausted."

def known (inbox : Inbox) (id : String) : Bool :=
  inbox.receipts.any (fun seen => seen = id) ||
    inbox.items.any fun item => item.id = id

/-- A new draft at the end. -/
def push (inbox : Inbox) (id text : String) (image : Option Image)
    (next : Inbox × String) : Inbox :=
  { next.1 with
    items := inbox.items ++ [⟨id, next.2, text, none, none, false, image⟩] }

def acceptContent (inbox : Inbox) (id text : String)
    (image : Option Image) : Except String (Inbox × Bool) := do
  refuseIf (validHash id = false) "Invalid share identifier."
  validateContent text image
  if inbox.known id then .ok (inbox, false)
  else do
    refuseIf (inbox.items.length ≥ maxItems)
      "Eight shared drafts are pending. Open Messages to use or discard one, then share again."
    let next ← inbox.nextRevision
    return (inbox.push id text image next, true)

def accept (inbox : Inbox) (id text subject : String) :
    Except String (Inbox × Bool) := do
  let body ← normalize text subject
  inbox.acceptContent id body none

/-- The text that comes with a photo. -/
def caption (text subject : String) : Except String String :=
  if trim text = "" then
    if trim subject = "" then .ok "" else normalize subject ""
  else normalize text subject

def acceptImage (inbox : Inbox) (id text subject : String) (image : Image) :
    Except String (Inbox × Bool) := do
  let body ← caption text subject
  inbox.acceptContent id body (some image)

def lastReceipts (receipts : List String) : List String :=
  receipts.drop (receipts.length - maxReceipts)

def discard (inbox : Inbox) (index : Nat) (item : Item) :
    Except String (Inbox × Option Item) := do
  let receipts := inbox.receipts ++ [item.id]
  let next ← { inbox with
    items := inbox.items.eraseIdx index
    receipts :=
      if receipts.length > maxReceipts then receipts.drop 1
      else receipts }.nextRevision
  return (next.1, none)

/-- Put a changed item in its place, under the next revision. -/
def revise (inbox : Inbox) (index : Nat) (changed : Item) :
    Except String (Inbox × Option Item) := do
  let next ← inbox.nextRevision
  let item := { changed with revision := next.2 }
  return ({ next.1 with items := inbox.items.set index item }, some item)

def assign (inbox : Inbox) (identity : String) (args : TextShareEdit)
    (index : Nat) (item : Item) : Except String (Inbox × Option Item) := do
  let recipient ← okOr (args.recipient.filter fun value => validHash value)
    "Choose a valid recipient."
  refuseIf (item.recipient.any fun value => value ≠ recipient)
    "This draft already has a recipient."
  validateContent (args.text.getD item.text) item.image
  inbox.revise index { item with
    identity := some identity
    recipient := some recipient
    text := args.text.getD item.text
    sendAttempted := false }

def draft (inbox : Inbox) (args : TextShareEdit) (index : Nat) (item : Item) :
    Except String (Inbox × Option Item) := do
  refuseIf (item.identity = none) "Choose a recipient first."
  let text ← okOr args.text "Draft text is missing."
  validateContent text item.image
  inbox.revise index { item with text := text }

def sending (inbox : Inbox) (index : Nat) (item : Item) :
    Except String (Inbox × Option Item) := do
  refuseIf (item.identity = none) "Choose a recipient first."
  inbox.revise index { item with sendAttempted := true }

/-- The first item of exactly this identifier and revision. -/
def position (inbox : Inbox) (args : TextShareEdit) :
    Option (Nat × Item) :=
  let found := inbox.items.findIdx fun item =>
    item.id = args.id && item.revision = args.revision
  inbox.items[found]?.map fun item => (found, item)

def edit (inbox : Inbox) (identity : String) (args : TextShareEdit) :
    Except String (Inbox × Option Item) := do
  refuseIf (validHash identity = false) "Unlock an identity before sharing."
  let found ← okOr (inbox.position args) "This shared draft changed. Open it again."
  refuseIf (found.2.identity.any fun owner => owner ≠ identity)
    "This shared draft belongs to another identity."
  if args.operation = "discard" then inbox.discard found.1 found.2
  else if args.operation = "assign" then
    inbox.assign identity args found.1 found.2
  else if args.operation = "draft" then inbox.draft args found.1 found.2
  else if args.operation = "sending" then inbox.sending found.1 found.2
  else .error "Unsupported share operation."

def prune (inbox : Inbox) (identities : List String) : Inbox × Bool :=
  let removed := (inbox.items.filter fun item =>
    item.identity.any fun id => id ∉ identities).map Item.id
  ({ inbox with
    items := inbox.items.filter fun item => item.id ∉ removed
    receipts := lastReceipts (inbox.receipts ++ removed) },
    !removed.isEmpty)

end Inbox

/-! ## Transactions -/

inductive Operation where
  | accept (id text subject : String)
  | acceptImage (id text subject : String) (image : Image)
  | edit (identity : String) (args : TextShareEdit)
  | prune (identities : List String)

inductive Outcome where
  | accepted (isNew : Bool)
  | edited (item : Option Item)
  | pruned (any : Bool)

def Inbox.perform (inbox : Inbox) :
    Operation → Except String (Inbox × Outcome)
  | .accept id text subject =>
      (inbox.accept id text subject).map fun result =>
        (result.1, .accepted result.2)
  | .acceptImage id text subject image =>
      (inbox.acceptImage id text subject image).map fun result =>
        (result.1, .accepted result.2)
  | .edit identity args =>
      (inbox.edit identity args).map fun result =>
        (result.1, .edited result.2)
  | .prune identities =>
      .ok ((inbox.prune identities).1, .pruned (inbox.prune identities).2)

/-- Persist the changed inbox before it takes the place of the old one. -/
def transaction (inbox : Inbox) (operation : Operation)
    (persist : List Char → Except String Unit) :
    Inbox × Except String Outcome :=
  match inbox.perform operation with
  | .error error => (inbox, .error error)
  | .ok (next, outcome) =>
      if textSize next.encode > maxStoreBytes then
        (inbox, .error "Shared drafts storage is full.")
      else
        match persist next.encode with
        | .error error => (inbox, .error error)
        | .ok () => (next, .ok outcome)

/-- An operation, and whether its inbox can be stored. -/
structure Request where
  operation : Operation
  persist : List Char → Except String Unit

def Inbox.step (inbox : Inbox) (request : Request) : Inbox :=
  (transaction inbox request.operation request.persist).1

end Ratspeak.Share
