import Derp.Library.Bytes
import Derp.Library.RingBuffer
import Derp.Library.Tables
import Derp.Library.Transition
import Derp.Rng
import Derp.Net.Step
import Derp.Net.Views
import Derp.Net.Linked
import Derp.Net.References
import Derp.Net.Lifecycle
import Derp.Net.Calls
import Derp.Net.Wiring
import Derp.Net.Slots
import Derp.Net.Pipes
import Derp.Net.Landing
import Derp.Net.Accounting
import Derp.Net.Rings
import Derp.Net.Arrivals
import Derp.Net.Streams
import Derp.Sched.Defs
import Derp.Sched.Events
import Derp.Library.Loop
import Derp.Net.Readiness
import Derp.Net.Edges
import Derp.Net.Notices
import Derp.Net.Kqueue
import Derp.Sched.Pick
import Derp.Sched.Step
import Derp.Sched.Changes
import Derp.Sched.Choosing
import Derp.Sched.Tidy
import Derp.Sched.Restarts
import Derp.Sched.Deadlock
import Derp.Sched.Ranks
import Derp.Sched.Pct
import Derp.Sched.Starving
import Derp.Sched.Veil
import Derp.Sched.Alike
import Derp.Sched.Reseed
import Derp.Sched.Baton
import Derp.Sched.Clock
import Derp.Sched.Sights
import Derp.Sched.Quiet
import Derp.Library.Mailboxes
import Derp.Net.Apart
import Derp.Net.Datagrams
import Derp.Net.Mail
import Derp.Net.Posting
import Derp.Net.Refusals
import Derp.Library.Conditions
import Derp.Net.Peers
import Derp.Net.Replies
import Derp.Sched.Condvars
import Derp.Sched.Pauses
import Derp.Sched.Signals
import Derp.Suspects
import Derp.Launch.Channel
import Derp.Vmmap
import Derp.Hostfs
import Derp.Rewrite.Exclusive
import Derp.Macho.Panics
import Derp.Macho.Layout
import Derp.Rewrite.Targets
import Derp.Rewrite.Aims
import Derp.Rewrite.Image
import Derp.Rewrite.Placement
import Derp.Rewrite.WellPlaced
import Derp.Rewrite.Agreement
import Derp.Manifest
import Derp.Replay.Forging
import Derp.Replay.Bisect
import Derp.Kqueue.Reports
import Derp.Alloc.Runs
import Derp.Sched.Settlement
import Derp.Masks.Alone
import Derp.Rooms
import Derp.Settings.Replays
import Derp.Draws
import Derp.Sched.Deferred
import Derp.Sched.Lock
import Derp.Sched.Parking
import Derp.Sched.Halting
import Derp.Sched.Outside
import Derp.Sched.Mourning
import Derp.Sched.Children
import Derp.Sched.Hush
import Derp.Sched.Interrupts
import Derp.Sched.Networks
import Derp.Sched.Ahead
import Derp.Sched.Punctual
import Derp.Cache.Filling
import Derp.Masks.Loading
import Derp.Sched.Handing
