import Mathlib.Data.List.Induction
import Ratspeak.Database.HistoryUnread
import Ratspeak.Library.Runs

/-!
# Paging the channel history

A reader has collected all events of its room between two sequences: from the
cursor where older pages end up to the newest event that it has seen.  Older
pages lower the one, newer pages raise the other, and what happens to the
tables in between only adds rows above and takes rows away.
-/

namespace Ratspeak

open Library

/-! ## Cursors of pages -/

/-- The page of the last of some rows. -/
def pageBefore (limit : Nat) (rows : List ChannelHistoryRow) :
    ChannelHistoryPage :=
  let found := (downwards ChannelHistoryRow.sequence (limit + 1) rows).map
    ChannelHistoryRow.shown
  let items := (found.take limit).reverse
  { items := items
    nextBefore :=
      if decide (limit < found.length) then
        items.head?.map ChannelHistoryEvent.sequence
      else none
    nextAfter := items.getLast?.map ChannelHistoryEvent.sequence
    hasMore := decide (limit < found.length) }

namespace ChannelHistoryDb

variable {db : ChannelHistoryDb}

variable [UnicodeTables]
  {identityId hubDestinationHash roomName : String} {limit : Nat}
  {call : ChannelHistoryCall}

end ChannelHistoryDb

/-! ## What a reader has -/

/-- A reader of a room has collected rows: all between a floor and a ceiling
that are left in the tables, in their order.  The floor is where older pages
end, and zero once there are none. -/
structure Collects (db : ChannelHistoryDb) (room : ChannelRoom)
    (reader : ChannelHistoryReader) (rows : List ChannelHistoryRow)
    (floor ceiling : Nat) : Prop where
  items : reader.items = rows.map ChannelHistoryRow.shown
  inRoom : ∀ row ∈ rows, row.room = room
  placed : Placed ChannelHistoryRow.sequence rows
  older : reader.nextBefore = none ∧ floor = 0 ∨
    reader.nextBefore = some (toString floor) ∧ 0 < floor
  latest : reader.latestSequence = toString ceiling
  ordered : floor ≤ ceiling
  drawn : ceiling ≤ db.sequencesDrawn
  between : ∀ row ∈ rows, floor ≤ row.sequence ∧ row.sequence ≤ ceiling
  whole : ∀ row ∈ db.rows, row.room = room → floor ≤ row.sequence →
    row.sequence ≤ ceiling → row ∈ rows

namespace Collects

variable {db : ChannelHistoryDb} {room : ChannelRoom}
  {reader : ChannelHistoryReader} {rows : List ChannelHistoryRow}
  {floor ceiling : Nat}

/-- What changes the tables changes nothing for the reader. -/
theorem grows (collects : Collects db room reader rows floor ceiling)
    {after : ChannelHistoryDb} (grows : db.Grows after) :
    Collects after room reader rows floor ceiling where
  items := collects.items
  inRoom := collects.inRoom
  placed := collects.placed
  older := collects.older
  latest := collects.latest
  ordered := collects.ordered
  drawn := collects.drawn.trans grows.drawn
  between := collects.between
  whole := by
    intro row member inRoom above below
    rcases grows.rows row member with kept | isNew
    · exact collects.whole row kept inRoom above below
    · have known := collects.drawn
      omega

end Collects

end Ratspeak
