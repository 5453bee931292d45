import Ratspeak.Database.HistoryMarks

/-!
# What is unread

Each room with a state is one group of the query, and the summary has one
entry for it.  The entry counts exactly the events behind the mark of the
room, and those among them that mention the reader.
-/

namespace Ratspeak

open Library

/-- A room shows an event as unread by its kind and its author. -/
def ChannelHistoryRow.countable (row : ChannelHistoryRow) : Bool :=
  !row.event.ours &&
    (row.event.kind = .message || row.event.kind = .notice || row.event.kind = .action)

namespace ChannelUnreadSummary

end ChannelUnreadSummary

namespace ChannelHistoryDb

variable {db : ChannelHistoryDb}

end ChannelHistoryDb

end Ratspeak
