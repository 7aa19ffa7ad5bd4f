/-! # Listeners

A view signals its listener when buffers wait again after none did. The listener is a bounded
channel, which keeps a message for whoever reads it, or a callback, which runs at once. -/

namespace FairMerge

/-- Who is signalled by a view. -/
inductive Listener where
  /-- A channel that holds so many messages at most. Once its reader has gone, messages are lost. -/
  | channel (capacity waiting : Nat) (connected : Bool)
  /-- A callback, with the number of times it was called. -/
  | callback (calls : Nat)
deriving DecidableEq

namespace Listener

/-- A channel without messages. -/
def ofChannel (capacity : Nat) : Listener := channel capacity 0 true

/-- A callback that has not been called. -/
def ofCallback : Listener := callback 0

/-- Takes a signal. A channel that is full absorbs it, since the message that waits says the same,
and so does one without a reader. -/
def signal : Listener → Listener
  | channel capacity waiting connected =>
    if connected && waiting < capacity then channel capacity (waiting + 1) connected
    else channel capacity waiting connected
  | callback calls => callback (calls + 1)

/-- Reads a message from a channel, and says whether one was there. A callback has none. -/
def receive? : Listener → Option (Bool × Listener)
  | channel capacity (waiting + 1) connected => some (true, channel capacity waiting connected)
  | channel capacity 0 connected => some (false, channel capacity 0 connected)
  | callback _ => none

/-- Takes the reader from a channel, and its messages with it. -/
def disconnect? : Listener → Option Listener
  | channel capacity _ _ => some (channel capacity 0 false)
  | callback _ => none

/-- How often a callback was called. -/
def calls? : Listener → Option Nat
  | channel _ _ _ => none
  | callback calls => some calls

/-- What can be seen of the signals: the messages that wait in a channel with a reader, or the
number of calls. -/
def signals? : Listener → Option Nat
  | channel _ waiting true => some waiting
  | channel _ _ false => none
  | callback calls => some calls

end Listener

end FairMerge
