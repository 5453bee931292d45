import Mathlib.Data.List.Destutter
import Mathlib.Data.List.Sort
import Ratspeak.Hub.Membership

/-!
# Slash commands

Operators moderate by messages that start with a slash.  Most commands begin
alike: the room argument must be a room name, the room must be visible to the
sender, and the sender must be an operator of it.  These beginnings are shared
here, with the replies they end in.
-/

namespace Ratspeak

open Library

/-- Texts in ascending order. -/
def sortTexts (texts : List String) : List String :=
  texts.insertionSort fun left right => left ≤ right

/-- The first twelve hexadecimal digits of an identity. -/
def shortHash (identity : IdentityHash) : String :=
  String.ofList ((hexEncode identity.val).toList.take 12)

def noneIfEmpty (items : List String) : List String :=
  if items.isEmpty then ["(none)"] else items

namespace HubCore

/-! ## Targets -/

/-- The identities of the sessions that pass a test, with their nicknames. -/
def matchingIdentities (core : HubCore) (matched : HubSession → IdentityHash → Bool) :
    List (IdentityHash × Option String) :=
  (FiniteMap.bindings core.sessions).foldl
    (fun found entry =>
      match entry.2.identity with
      | none => found
      | some identity =>
          if matched entry.2 identity ∧
              ¬ found.any fun known => known.1 == identity then
            found ++ [(identity, entry.2.nickname)]
          else found)
    []

section Targets

variable [UnicodeTables]

/-- Resolve a command target: six or more hexadecimal digits are a prefix of
an identity hash, anything else is a nickname. -/
def resolveTarget (core : HubCore) (token : String) :
    Except String IdentityHash :=
  let lowered := toLowercase token
  let isHex := 6 ≤ lowered.utf8ByteSize ∧ lowered.toList.all isAsciiHexDigit
  let found := core.matchingIdentities fun session identity =>
    if isHex then lowered.toList.isPrefixOf (hexEncode identity.val).toList
    else session.nickname.any fun nickname =>
      eqIgnoreAsciiCase nickname token
  match found with
  | [] => .error ("target '" ++ token ++ "' not found")
  | [(identity, _)] => .ok identity
  | several =>
      .error <| joinWith "\n" <|
        ["ambiguous: '" ++ token ++ "' matches " ++
          toString several.length ++ " identities:"] ++
        several.map (fun (identity, nickname) =>
          "  - " ++ hexEncode identity.val ++ " " ++
            match nickname with
            | some nick => "nick='" ++ nick ++ "'"
            | none => "(no nick)") ++
        ["Use full or longer identity hash to disambiguate."]

/-- A full identity hash also names someone who is not connected. -/
def resolveTargetOrHash (core : HubCore) (token : String) :
    Except String IdentityHash :=
  if token.utf8ByteSize = 32 ∧ token.toList.all isAsciiHexDigit then
    match (hexDecode (toLowercase token)).bind (Bytes.ofList 16) with
    | some identity => .ok identity
    | none => .error ("bad identity hash: " ++ token)
  else core.resolveTarget token

end Targets

end HubCore

namespace HubTurn

/-! ## Shared beginnings and endings -/

section Beginnings

variable [UnicodeTables]

/-- Go on with the normal form of a room argument. -/
def withRoomName (turn : HubTurn) (linkId : LinkId) (roomArg : String)
    (scope : Option String) (next : String → HubTurn) : HubTurn :=
  match turn.core.normRoom roomArg with
  | .error reason => turn.pushNotice linkId ("bad room: " ++ reason) scope
  | .ok roomName => next roomName

end Beginnings

/-- Go on with a room that the sender may know of. -/
def withVisibleRoom (turn : HubTurn) (linkId : LinkId)
    (identity : IdentityHash) (roomName : String) (next : HubRoom → HubTurn) : HubTurn :=
  match turn.core.rooms.lookup roomName with
  | none => turn.pushError linkId "no such room" (some roomName)
  | some room =>
      if turn.core.canViewRoom room identity then next room
      else turn.pushError linkId "no such room" (some roomName)

/-- Go on if the sender is an operator of the room. -/
def withRoomOp (turn : HubTurn) (linkId : LinkId) (identity : IdentityHash)
    (roomName : String) (next : HubRoom → HubTurn) : HubTurn :=
  turn.withVisibleRoom linkId identity roomName fun room =>
    if turn.core.isRoomOp room identity then next room
    else turn.pushError linkId "not authorized" none

/-- Go on with a resolved target. -/
def withTarget (turn : HubTurn) (linkId : LinkId)
    (resolved : Except String IdentityHash) (scope : Option String)
    (next : IdentityHash → HubTurn) : HubTurn :=
  match resolved with
  | .error reason => turn.pushNotice linkId reason scope
  | .ok target => next target

/-- Tell the members the modes of their room. -/
def broadcastMode (turn : HubTurn) (roomName : String) : HubTurn :=
  match turn.core.rooms.lookup roomName with
  | none => turn
  | some room =>
      turn.noticeMembers room
        ("mode for " ++ roomName ++ " is now: " ++ room.modeString) roomName

/-- Tell the members a text about their room. -/
def broadcastText (turn : HubTurn) (roomName text : String) : HubTurn :=
  match turn.core.rooms.lookup roomName with
  | none => turn
  | some room => turn.noticeMembers room text roomName

/-- Queue the row of a room and record who moderated it. -/
def persistModerated (turn : HubTurn) (roomName : String) (linkId : LinkId) : HubTurn :=
  (turn.persistRoom roomName (some linkId)).noteModerated roomName

/-! ## Directory and rosters -/

/-- The lines of the directory that fit the budget, and their number. -/
def directoryLines (budget total : Nat) :
    Nat → String → List (String × HubRoom) → Nat × String
  | shown, text, [] => (shown, text)
  | shown, text, (name, room) :: rest =>
      let line := match room.topic with
        | some topic => "\n  " ++ name ++ " - " ++ clipTopic topic
        | none => "\n  " ++ name
      let remaining := total - shown - 1
      let tail := if 0 < remaining then
          ("\n  (+" ++ toString remaining ++ " more)").utf8ByteSize
        else 0
      if budget < text.utf8ByteSize + line.utf8ByteSize + tail then
        (shown, text)
      else directoryLines budget total (shown + 1) (text ++ line) rest

/-- The directory is one packet, with a count of what it leaves out. -/
def cmdList (turn : HubTurn) (linkId : LinkId) (identity : IdentityHash) :
    HubTurn :=
  let rooms := ((FiniteMap.bindings turn.core.rooms).filter fun entry =>
      entry.2.registered && turn.core.canViewRoom entry.2 identity).insertionSort
    fun left right => left.1 ≤ right.1
  if rooms.isEmpty then
    turn.pushNotice linkId "No public rooms registered" none
  else
    let budget := max (turn.textBodyBudget .notice none) minNoticeBodyBytes
    let (shown, text) := directoryLines budget rooms.length 0 "Registered public rooms:" rooms
    let text := if shown < rooms.length then
        text ++ "\n  (+" ++ toString (rooms.length - shown) ++ " more)"
      else text
    turn.pushNotice linkId text none

/-- The members of a room by identity, one entry for each. -/
def whoEntries (core : HubCore) (room : HubRoom) : List String :=
  let sessions := room.members.toList.filterMap fun member =>
    (core.sessions.lookup member).bind fun session =>
      session.identity.map fun identity => (session.nickname, identity)
  let sorted := sessions.insertionSort fun left right =>
    hexEncode left.2.val ≤ hexEncode right.2.val
  (sorted.destutter fun left right => left.2 ≠ right.2).map
    fun (nickname, identity) =>
      match nickname with
      | some nick => nick ++ " (" ++ shortHash identity ++ ")"
      | none => hexEncode identity.val

section Commands

variable [UnicodeTables]

def cmdWho (turn : HubTurn) (linkId : LinkId) (identity : IdentityHash)
    (args : List String) (rawRoom : Option String) : HubTurn :=
  match args.head?.or rawRoom with
  | none => turn.pushNotice linkId "usage: /who [room]" none
  | some target =>
      turn.withRoomName linkId target none fun roomName =>
        let members := match turn.core.rooms.lookup roomName with
          | none => []
          | some room =>
              if turn.core.canViewRoom room identity then
                whoEntries turn.core room
              else []
        turn.pushNoticeEntries linkId
          (.every ("members in " ++ roomName ++ ": "))
          (noneIfEmpty members) ", " none

/-! ## Removal -/

def cmdKick (turn : HubTurn) (linkId : LinkId) (identity : IdentityHash)
    (args : List String) (rawRoom : Option String) : HubTurn :=
  match args with
  | [roomArg, token] =>
      turn.withRoomName linkId roomArg rawRoom fun roomName =>
      turn.withRoomOp linkId identity roomName fun _ =>
      turn.withTarget linkId (turn.core.resolveTarget token) rawRoom
        fun target =>
          let links := turn.core.roomLinksForIdentity roomName target
          if links.isEmpty then
            turn.pushNotice linkId "target not in room" rawRoom
          else
            ((turn.ejectIdentityFromRoom roomName target
                ("kicked from " ++ roomName)).noteModerated
              roomName).pushNotice linkId
              ("kicked " ++ token ++ " from " ++ roomName) rawRoom
  | _ => turn.pushNotice linkId "usage: /kick <room> <nick|hashprefix>" none

end Commands

/-- Ban an identity from the hub: its leases end, and the set is stored. -/
def recordKline (turn : HubTurn) (target : IdentityHash) (origin : Option LinkId) : HubTurn :=
  (turn.mapCore fun core =>
    { core with
      klines := core.klines.insert target
      rooms := FiniteMap.mapValues
        (fun _ room =>
          { room with rejoinUntil := room.rejoinUntil.erase target })
        core.rooms }).persistKlines origin

def recordUnkline (turn : HubTurn) (target : IdentityHash) (origin : Option LinkId) : HubTurn :=
  (turn.mapCore fun core =>
    { core with klines := core.klines.erase target }).persistKlines origin

/-- Close every session of an identity. -/
def dismissIdentity (turn : HubTurn) (target : IdentityHash) : HubTurn :=
  (turn.core.linksForIdentity target).foldl dismissLink turn

section Commands

variable [UnicodeTables]

def cmdKline (turn : HubTurn) (linkId : LinkId) (identity : IdentityHash)
    (args : List String) : HubTurn :=
  let usage := "usage: /kline add|del|list [nick|hashprefix|hash]"
  if ¬ identity ∈ turn.core.serverOps then
    turn.pushError linkId "not authorized" none
  else
    match args with
    | [] => turn.pushNotice linkId usage none
    | word :: rest =>
        let op := toLowercase word
        if op = "list" then
          turn.pushNoticeEntries linkId (.first "klines: ")
            (noneIfEmpty (sortTexts (turn.core.klines.toList.map
              fun subject => hexEncode subject.val))) ", " none
        else if op ≠ "add" ∧ op ≠ "del" then
          turn.pushNotice linkId usage none
        else
          match rest with
          | [] =>
              turn.pushNotice linkId ("usage: /kline " ++ op ++ " <nick|hashprefix|hash>") none
          | token :: _ =>
              turn.withTarget linkId (turn.core.resolveTargetOrHash token) none
                fun target =>
                  if op = "add" then
                    ((turn.recordKline target (some linkId)).pushNotice linkId
                      ("kline added for " ++ hexEncode target.val)
                      none).dismissIdentity target
                  else if target ∈ turn.core.klines then
                    (turn.recordUnkline target (some linkId)).pushNotice
                      linkId ("kline removed for " ++ hexEncode target.val)
                      none
                  else
                    turn.pushNotice linkId ("not klined: " ++ hexEncode target.val) none

/-! ## Registration -/

def cmdRegister (turn : HubTurn) (linkId : LinkId) (identity : IdentityHash)
    (args : List String) (rawRoom : Option String) : HubTurn :=
  match args with
  | [] => turn.pushNotice linkId "usage: /register <room>" none
  | roomArg :: _ =>
      turn.withRoomName linkId roomArg none fun roomName =>
        if !turn.core.sessionInRoom linkId roomName then
          turn.pushNotice linkId "must be present in the room to register it" rawRoom
        else if (turn.core.rooms.lookup roomName).isNone then turn
        else if ¬ identity ∈ turn.core.serverOps then
          turn.pushError linkId "only a server operator can register" (some roomName)
        else if turn.core.config.maxRegisteredRooms ≤
            turn.core.registeredRoomCount then
          turn.pushNotice linkId "registry is full" rawRoom
        else
          ((turn.modifyRoom roomName fun room =>
            { room with
              registered := true
              noOutsideMsgs := true
              topicOpsOnly := true
              ops := room.ops.insert identity
              lastUsed := turn.ambient.unix }).persistModerated roomName
            linkId).pushNotice linkId ("registered room " ++ roomName) rawRoom

/-- A room that is no longer registered ends when nobody is in it. -/
def dropIfEmpty (turn : HubTurn) (roomName : String) : HubTurn :=
  match turn.core.rooms.lookup roomName with
  | none => turn
  | some room =>
      if room.members.isEmpty then
        turn.mapCore fun core =>
          { core with
            rooms := core.rooms.erase roomName
            roomTokens := core.roomTokens.erase roomName }
      else turn

def cmdUnregister (turn : HubTurn) (linkId : LinkId)
    (identity : IdentityHash) (args : List String) (rawRoom : Option String) : HubTurn :=
  match args with
  | [] => turn.pushNotice linkId "usage: /unregister <room>" none
  | roomArg :: _ =>
      turn.withRoomName linkId roomArg none fun roomName =>
        if ¬ identity ∈ turn.core.serverOps then
          turn.pushError linkId "only a server operator can unregister" (some roomName)
        else if !(turn.core.rooms.lookup roomName).any
            HubRoom.registered then
          turn.pushNotice linkId ("room " ++ roomName ++ " is not registered") rawRoom
        else
          ((((turn.modifyRoom roomName fun room =>
            { room with
              registered := false
              rejoinUntil := ∅ }).noteModerated roomName).dropIfEmpty
            roomName).pushPersist (.removed roomName) (some linkId)
            (some roomName)).pushNotice linkId
            ("unregistered room " ++ roomName) rawRoom

/-! ## Topic and modes -/

def setTopic (topic : String) (room : HubRoom) : HubRoom :=
  { room with topic := if topic.isEmpty then none else some topic }

def cmdTopic (turn : HubTurn) (linkId : LinkId) (identity : IdentityHash)
    (args : List String) (rawRoom : Option String) : HubTurn :=
  match args with
  | [] => turn.pushNotice linkId "usage: /topic <room> [topic]" none
  | roomArg :: words =>
      turn.withRoomName linkId roomArg none fun roomName =>
      turn.withVisibleRoom linkId identity roomName fun room =>
        if words.isEmpty then
          turn.pushNotice linkId
            ("topic for " ++ roomName ++ ": " ++ room.topic.getD "(none)") rawRoom
        else if !turn.core.isRoomOp room identity && room.topicOpsOnly then
          turn.pushError linkId "not authorized (+t)" (some roomName)
        else
          let topic := trim (joinWith " " words)
          let display := if topic.isEmpty then "(cleared)" else topic
          ((turn.modifyRoom roomName (setTopic topic)).broadcastText roomName
            ("topic for " ++ roomName ++ " is now: " ++
              display)).persistModerated roomName linkId

/-- The room with one of its plain flags set or cleared. -/
def setModeFlag (flag : String) (room : HubRoom) : HubRoom :=
  let enable := startsWithChar '+' flag
  let letter := dropFirst flag
  if letter = "m" then { room with moderated := enable }
  else if letter = "i" then
    -- A lease that was minted under the prior gate must not survive it.
    { room with inviteOnly := enable, rejoinUntil := ∅ }
  else if letter = "t" then { room with topicOpsOnly := enable }
  else if letter = "n" then { room with noOutsideMsgs := enable }
  else { room with isPrivate := enable }

def plainModeFlags : List String :=
  ["+m", "-m", "+i", "-i", "+t", "-t", "+n", "-n", "+p", "-p"]

/-- The room with a role granted or taken. -/
def setRole (flag : String) (target : IdentityHash) (room : HubRoom) :
    HubRoom :=
  if flag = "+o" then { room with ops := room.ops.insert target }
  else if flag = "-o" then { room with ops := room.ops.erase target }
  else if flag = "+v" then { room with voiced := room.voiced.insert target }
  else { room with voiced := room.voiced.erase target }

/-- Change the policy of a room, tell its members the modes, and store it. -/
def changeMode (turn : HubTurn) (roomName : String) (linkId : LinkId)
    (change : HubRoom → HubRoom) : HubTurn :=
  ((turn.modifyRoom roomName change).broadcastMode roomName).persistModerated roomName linkId

end Commands

section Modes

variable [HubCrypto]

/-- `+k`: a key is one word, since the join gate reads it verbatim. -/
def setRoomKey (turn : HubTurn) (linkId : LinkId) (roomName : String)
    (words : List String) (rawRoom : Option String) : HubTurn :=
  if words.isEmpty then
    turn.pushNotice linkId "usage: /mode <room> +k <key>" rawRoom
  else
    let key := trim (joinWith " " words)
    if key.isEmpty then
      turn.pushNotice linkId "key must not be empty" rawRoom
    else if 1 < words.length ∨ key.toList.any isWhitespace then
      turn.pushNotice linkId "key must not contain spaces" rawRoom
    else if key.utf8ByteSize < minRoomKeyBytes then
      turn.pushNotice linkId "key must be at least 8 bytes" rawRoom
    else
      turn.changeMode roomName linkId fun room =>
        { room with
          key := some <| roomKeyDigest turn.core.pepper turn.core.pepperId
            roomName key turn.ambient.salt }

variable [UnicodeTables]

def modeRole (turn : HubTurn) (linkId : LinkId) (roomName flag : String)
    (words : List String) (rawRoom : Option String) : HubTurn :=
  match words with
  | [] =>
      turn.pushNotice linkId "usage: /mode <room> (+o|-o|+v|-v) <nick|hashprefix|hash>" rawRoom
  | token :: _ =>
      turn.withTarget linkId (turn.core.resolveTargetOrHash token) rawRoom
        fun target =>
          if flag = "-o" ∧ target ∈ turn.core.serverOps then
            turn.pushNotice linkId "cannot deop a server operator" rawRoom
          else
            ((turn.modifyRoom roomName (setRole flag target)).broadcastText
              roomName
              ("mode for " ++ roomName ++ " is now: " ++ flag ++ " " ++
                shortHash target)).persistModerated roomName linkId

def cmdMode (turn : HubTurn) (linkId : LinkId) (identity : IdentityHash)
    (args : List String) (rawRoom : Option String) : HubTurn :=
  match args with
  | roomArg :: flag :: words =>
      turn.withRoomName linkId roomArg none fun roomName =>
      turn.withRoomOp linkId identity roomName fun _ =>
        if flag ∈ plainModeFlags then
          turn.changeMode roomName linkId (setModeFlag flag)
        else if flag = "+k" then
          turn.setRoomKey linkId roomName words rawRoom
        else if flag = "-k" then
          turn.changeMode roomName linkId fun room => { room with key := none }
        else if flag = "+r" ∨ flag = "-r" then
          turn.pushNotice linkId "use /register or /unregister to change +r" rawRoom
        else if flag ∈ ["+o", "-o", "+v", "-v"] then
          turn.modeRole linkId roomName flag words rawRoom
        else
          turn.pushNotice linkId
            ("supported modes: +m -m +i -i +k -k +t -t +n -n +p -p +o -o " ++
              "+v -v; use /register or /unregister for +r") rawRoom
  | _ =>
      turn.pushNotice linkId
        ("usage: /mode <room> (+m|-m|+i|-i|+t|-t|+n|-n|+p|-p|+k|-k) [key] " ++
          "| /mode <room> (+o|-o|+v|-v) <nick|hashprefix|hash>") none

end Modes

section Commands

variable [UnicodeTables]

/-- The flag that a role verb stands for. -/
def roleFlag (verb : String) : String :=
  if verb = "op" then "+o"
  else if verb = "deop" then "-o"
  else if verb = "voice" then "+v"
  else "-v"

def roleText (verb : String) : String :=
  if verb = "op" then "op granted in "
  else if verb = "deop" then "op removed in "
  else if verb = "voice" then "voice granted in "
  else "voice removed in "

def cmdGrant (turn : HubTurn) (linkId : LinkId) (identity : IdentityHash)
    (verb : String) (args : List String) (rawRoom : Option String) :
    HubTurn :=
  match args with
  | roomArg :: token :: _ =>
      turn.withRoomName linkId roomArg none fun roomName =>
      turn.withRoomOp linkId identity roomName fun _ =>
      turn.withTarget linkId (turn.core.resolveTargetOrHash token) rawRoom
        fun target =>
          if verb = "deop" ∧ target ∈ turn.core.serverOps then
            turn.pushNotice linkId "cannot deop a server operator" rawRoom
          else
            ((turn.modifyRoom roomName
              (setRole (roleFlag verb) target)).persistModerated roomName
              linkId).pushNotice linkId (roleText verb ++ roomName) rawRoom
  | _ =>
      turn.pushNotice linkId ("usage: /" ++ verb ++ " <room> <nick|hashprefix|hash>") none

/-! ## Bans and invites -/

def cmdBan (turn : HubTurn) (linkId : LinkId) (identity : IdentityHash)
    (args : List String) (rawRoom : Option String) : HubTurn :=
  let usage := "usage: /ban <room> add|del|list [nick|hashprefix|hash]"
  match args with
  | roomArg :: word :: rest =>
      let op := toLowercase word
      turn.withRoomName linkId roomArg none fun roomName =>
        if op ≠ "add" ∧ op ≠ "del" ∧ op ≠ "list" then
          turn.pushNotice linkId usage none
        else
          turn.withRoomOp linkId identity roomName fun room =>
            if op = "list" then
              if room.bans.isEmpty then
                turn.pushNotice linkId ("no bans in " ++ roomName) rawRoom
              else
                turn.pushNoticeEntries linkId
                  (.first ("bans in " ++ roomName ++ ": "))
                  (sortTexts (room.bans.toList.map fun subject =>
                    hexEncode subject.val)) ", " rawRoom
            else
              match rest with
              | [] => turn.pushNotice linkId usage none
              | token :: _ =>
                  turn.withTarget linkId
                    (turn.core.resolveTargetOrHash token) rawRoom fun target =>
                      if op = "add" then
                        ((((turn.modifyRoom roomName fun room =>
                          { room with
                            bans := room.bans.insert target
                          }).ejectIdentityFromRoom roomName target
                            ("banned from " ++ roomName)).persistModerated
                          roomName linkId)).pushNotice linkId
                          ("ban added in " ++ roomName) rawRoom
                      else
                        ((turn.modifyRoom roomName fun room =>
                          { room with
                            bans := room.bans.erase target
                          }).persistModerated roomName linkId).pushNotice
                          linkId ("ban removed in " ++ roomName) rawRoom
  | _ => turn.pushNotice linkId usage none

/-- The live invites of a room, with the seconds they have left. -/
def inviteEntries (room : HubRoom) (now : WallTime) : List String :=
  ((FiniteMap.bindings room.invited).filter fun entry =>
    decide (now < entry.2)).map fun entry =>
      hexEncode entry.1.val ++ " expires_in=" ++
        toString ((entry.2 - now).toNat / 10 ^ 9) ++ "s"

/-- Whether an invite has a gate to pass. -/
def isGated (room : HubRoom) : Bool :=
  room.inviteOnly || room.key.isSome

def inviteText (roomName : String) (keyed : Bool) : String :=
  if keyed then
    "You have been invited to join " ++ roomName ++
      ". This invite allows joining without the key (+k)."
  else "You have been invited to join " ++ roomName ++ "."

/-- The lifetime of an invite, in seconds. -/
def inviteTtl (core : HubCore) : Nat :=
  max core.config.inviteTimeoutSecs 1

def addInvite (turn : HubTurn) (roomName : String) (target : IdentityHash) : HubTurn :=
  turn.modifyRoom roomName fun room =>
    { room with
      invited := room.invited.insert target
        (turn.ambient.unix + (seconds (inviteTtl turn.core) : Int)) }

/-- Tell an invited identity, if it is connected. -/
def pushInviteNotice (turn : HubTurn) (roomName : String) (keyed : Bool)
    (target : IdentityHash) : HubTurn :=
  match turn.core.byIdentity.lookup target with
  | none => turn
  | some targetLink =>
      turn.pushNotice targetLink (inviteText roomName keyed) (some roomName)

/-- `/invite <room> add`: only a gated room records the invite. -/
def inviteAdd (turn : HubTurn) (linkId : LinkId) (roomName : String)
    (room : HubRoom) (token : String) (target : IdentityHash)
    (rawRoom : Option String) : HubTurn :=
  if isGated room then
    ((((turn.addInvite roomName target).pushInviteNotice roomName
      room.key.isSome target).persistModerated roomName linkId)).pushNotice
      linkId
      ("invite added in " ++ roomName ++ " (expires in " ++
        toString (inviteTtl turn.core) ++ "s)") rawRoom
  else
    ((turn.pushInviteNotice roomName room.key.isSome target).noteModerated
      roomName).pushNotice linkId
      ("invite sent to " ++ token ++ " for " ++ roomName) rawRoom

def cmdInvite (turn : HubTurn) (linkId : LinkId) (identity : IdentityHash)
    (args : List String) (rawRoom : Option String) : HubTurn :=
  let usage := "usage: /invite <room> add|del|list [nick|hashprefix|hash]"
  match args with
  | roomArg :: word :: rest =>
      let op := toLowercase word
      turn.withRoomName linkId roomArg none fun roomName =>
      turn.withRoomOp linkId identity roomName fun room =>
        if op = "list" then
          turn.pushNoticeEntries linkId
            (.first ("invites in " ++ roomName ++ ": "))
            (noneIfEmpty (sortTexts (inviteEntries room turn.ambient.unix)))
            ", " rawRoom
        else if op ≠ "add" ∧ op ≠ "del" then
          turn.pushNotice linkId usage none
        else
          match rest with
          | [] =>
              turn.pushNotice linkId
                ("usage: /invite " ++ roomName ++ " " ++ op ++
                  " <nick|hashprefix|hash>") rawRoom
          | token :: _ =>
              match turn.core.resolveTargetOrHash token with
              | .error reason =>
                  turn.pushError linkId ("invite failed: " ++ reason) none
              | .ok target =>
                  if op = "add" then
                    turn.inviteAdd linkId roomName room token target rawRoom
                  else
                    ((turn.modifyRoom roomName fun room =>
                      { room with
                        invited := room.invited.erase target
                        rejoinUntil := room.rejoinUntil.erase target
                      }).persistModerated roomName linkId).pushNotice linkId
                      ("invite removed in " ++ roomName) rawRoom
  | _ => turn.pushNotice linkId usage none

end Commands

/-! ## Service commands -/

def statsLines (turn : HubTurn) : List String :=
  let core := turn.core
  let stats := core.stats
  let sessions := FiniteMap.bindings core.sessions
  ["hub " ++ core.config.hubName ++ " v" ++ hubVersion,
    "uptime: " ++ toString ((turn.ambient.instant - core.startedAt) / 10 ^ 9) ++ "s",
    "sessions: " ++ toString sessions.length ++ " (" ++
      toString (sessions.countP fun entry => entry.2.welcomed) ++
      " welcomed)",
    "rooms: " ++ toString core.rooms.keys.length ++ " (" ++
      toString core.registeredRoomCount ++ " registered)",
    "registry: " ++ (if core.registryDegraded then "degraded" else "ok"),
    "relay: msgs=" ++ toString stats.messagesForwarded ++ " notices=" ++
      toString stats.noticesForwarded ++ " actions=" ++
      toString stats.actionsForwarded ++ " direct=" ++
      toString stats.directNotices,
    "control: joins=" ++ toString stats.joins ++ " parts=" ++
      toString stats.parts ++ " pings_out=" ++ toString stats.pingsOut ++
      " pongs_in=" ++ toString stats.pongsIn,
    "dropped: rate_limited=" ++ toString stats.rateLimited ++
      " bad_packets=" ++ toString stats.badPackets ++ " duplicates=" ++
      toString stats.duplicates ++ " oversize=" ++ toString stats.oversize,
    "resources: in=" ++ toString stats.resourcesReceived ++ " bytes=" ++
      toString stats.resourceBytesReceived ++ " rejected=" ++
      toString core.admission.rejected,
    "klines: " ++ toString core.klines.size]

def cmdStats (turn : HubTurn) (linkId : LinkId) (identity : IdentityHash) :
    HubTurn :=
  if ¬ identity ∈ turn.core.serverOps then
    turn.pushError linkId "not authorized" none
  else turn.pushNoticeEntries linkId .none turn.statsLines "\n" none

def cmdReload (turn : HubTurn) (linkId : LinkId) (identity : IdentityHash) :
    HubTurn :=
  if ¬ identity ∈ turn.core.serverOps then
    turn.pushError linkId "not authorized" none
  else
    turn.pushNotice linkId "configuration is managed from the Ratspeak app settings" none

section Dispatch

variable [UnicodeTables] [HubCrypto]

/-- The verb and the arguments of a text that starts with a slash. -/
def slashWords (envelope : Envelope) : Option (String × List String) :=
  match envelope.textBody with
  | none => none
  | some text =>
      match splitWhitespace (dropFirst (trim text)) with
      | [] => none
      | word :: args => some (toLowercase word, args)

/-- Run a command; nothing when the verb is not known. -/
def handleSlashCommand (turn : HubTurn) (linkId : LinkId)
    (identity : IdentityHash) (envelope : Envelope) : Option HubTurn :=
  match slashWords envelope with
  | none => none
  | some (verb, args) =>
      let raw := envelope.room
      if verb = "list" then some (turn.cmdList linkId identity)
      else if verb = "who" ∨ verb = "names" then
        some (turn.cmdWho linkId identity args raw)
      else if verb = "kick" then
        some (turn.cmdKick linkId identity args raw)
      else if verb = "kline" then
        some (turn.cmdKline linkId identity args)
      else if verb = "register" then
        some (turn.cmdRegister linkId identity args raw)
      else if verb = "unregister" then
        some (turn.cmdUnregister linkId identity args raw)
      else if verb = "topic" then
        some (turn.cmdTopic linkId identity args raw)
      else if verb = "mode" then
        some (turn.cmdMode linkId identity args raw)
      else if verb ∈ ["op", "deop", "voice", "devoice"] then
        some (turn.cmdGrant linkId identity verb args raw)
      else if verb = "ban" then
        some (turn.cmdBan linkId identity args raw)
      else if verb = "invite" then
        some (turn.cmdInvite linkId identity args raw)
      else if verb = "stats" then some (turn.cmdStats linkId identity)
      else if verb = "reload" then some (turn.cmdReload linkId identity)
      else none

end Dispatch

end HubTurn

end Ratspeak
