import Ratspeak.Library.FiniteMap
import Ratspeak.Library.Lines
import Ratspeak.Library.Text
import Ratspeak.Rrc
import Mathlib.Data.List.Sort

/-!
# Reading a room directory

The client takes the reply to `/list` apart line by line.  The framing is
exact, so that an ordinary greeting is no directory, and only a notice of the
hub itself, outside of any room, is read at all.

A parsed directory is a finite map from room names to topics; its rooms are
reported in the order of their names.
-/

namespace Ratspeak

open Library

def directoryMaxResponseBytes : Nat := 16 * 1024
def directoryMaxRooms : Nat := 256
def directoryMaxTopicBytes : Nat := 512

/-- The values of the machine's counters are below this one. -/
def counterLimit : Nat := 2 ^ 64

structure ChannelDirectoryRoomSnapshot where
  name : String
  topic : Option String
deriving DecidableEq, Repr

inductive ParsedRoomDirectoryNotice where
  | notDirectory
  | malformed
  | directory (rooms : List ChannelDirectoryRoomSnapshot)
      (omittedCount : Nat)
deriving DecidableEq, Repr

/-- The number of rooms that a line says were left out. -/
def parseDirectoryOmittedMarker (line : String) : Option Nat :=
  (((stripPrefix "(+" line).bind fun rest =>
    stripSuffix " more)" rest).bind fun count =>
    parseUnsigned counterLimit count).filter fun count => 0 < count

/-- The line has the framing of a count of rooms left out. -/
def looksLikeOmittedMarker (line : String) : Bool :=
  "(+".toList.isPrefixOf line.toList && " more)".toList.isSuffixOf line.toList

def hasControl (text : String) : Bool :=
  text.toList.any isControl

/-- The bindings of a table of rooms by name. -/
def directorySnapshot (rooms : FiniteMap String (Option String)) :
    List ChannelDirectoryRoomSnapshot :=
  ((FiniteMap.bindings rooms).map fun entry =>
    { name := entry.1, topic := entry.2 }).insertionSort
    fun left right => left.name ≤ right.name

/-- Bind the name unless it is bound already. -/
def enterRoom (name : String) (topic : Option String)
    (rooms : FiniteMap String (Option String)) :
    FiniteMap String (Option String) :=
  if (rooms.lookup name).isSome then rooms else rooms.insert name topic

/-- The two parts of a line, before the name is normalized. -/
def directoryFields (line : String) : String × Option String :=
  match splitOnce " - " line with
  | some (name, topic) => (name, some (trim topic))
  | none => (line, none)

section Parse

variable [UnicodeTables]

/-- The name and the topic in a line, unless it is malformed. -/
def readDirectoryRoom (maxRoomBytes : Nat) (line : String) :
    Option (String × Option String) :=
  if hasControl line then none
  else
    let (name, topic) := directoryFields line
    match normalizeRoom name maxRoomBytes with
    | .error _ => none
    | .ok name =>
        if hasControl name then none
        else
          let topic := topic.filter fun topic => !topic.isEmpty
          if topic.any fun topic =>
              decide (directoryMaxTopicBytes < topic.utf8ByteSize) || hasControl topic then none
          else some (name, topic)

/-- The lines after the heading. -/
def readDirectoryLines (maxRoomBytes : Nat) :
    FiniteMap String (Option String) → Nat → List String → ParsedRoomDirectoryNotice
  | rooms, omittedCount, [] => .directory (directorySnapshot rooms) omittedCount
  | rooms, omittedCount, line :: rest =>
      match parseDirectoryOmittedMarker line with
      | some omitted =>
          -- The count must be the last line.
          if rest.isEmpty then
            readDirectoryLines maxRoomBytes rooms omitted rest
          else .malformed
      | none =>
          if looksLikeOmittedMarker line then .malformed
          else
            match readDirectoryRoom maxRoomBytes line with
            | none => .malformed
            | some (name, topic) =>
                let rooms := enterRoom name topic rooms
                if directoryMaxRooms < rooms.keys.length then .malformed
                else readDirectoryLines maxRoomBytes rooms omittedCount rest

/-- The lines of a reply that are not blank, without the heading. -/
def directoryBody (others : List String) : List String :=
  (others.map trim).filter fun line => !line.isEmpty

def parseRoomDirectoryNotice (envelope : Envelope)
    (hubIdentity : IdentityHash) (maxRoomBytes : Nat) :
    ParsedRoomDirectoryNotice :=
  if envelope.source ≠ hubIdentity ∨ envelope.room.isSome then .notDirectory
  else
    match envelope.textBody with
    | none => .notDirectory
    | some body =>
        let text := trim body
        if text = "No public rooms registered" then .directory [] 0
        else
          match lines text with
          | [] => .notDirectory
          | first :: others =>
              if trim first ≠ "Registered public rooms:" then .notDirectory
              else if directoryMaxResponseBytes < text.utf8ByteSize then
                .malformed
              else
                readDirectoryLines maxRoomBytes ∅ 0 (directoryBody others)

end Parse

end Ratspeak
