import NtripClient.Bytes
import NtripClient.Error

/-!
# `NtripClient.Handles`: handles of a connection, and the messages sent through them

Messages to the server wait in an uplink to be written. They are queued in the order
they are sent, and taken from the front. Once the uplink is closed, it takes no more.

A connection that has not started hands out two kinds of handles: those that request
a shutdown and those that send data. All handles of a kind act on the same
connection, so only their number is kept. When the connection is dropped it hands out
no more, its uplink is closed, and a shutdown can still be requested and seen.
-/

set_option autoImplicit false

namespace NtripClient

/-- The messages that wait, and whether more may come. -/
structure Uplink where
  /-- The messages that wait, oldest first. -/
  queue : List Bytes := []
  /-- More messages may come. -/
  isOpen : Bool := true
deriving DecidableEq, Repr

namespace Uplink

/-- Adds a message behind the others. -/
def send (uplink : Uplink) (message : Bytes) : Except Error Uplink :=
  if uplink.isOpen then .ok { uplink with queue := uplink.queue ++ [message] }
  else .error Error.ended

/-- Takes the oldest message. -/
def take? (uplink : Uplink) : Option (Bytes × Uplink) :=
  match uplink.queue with
  | [] => none
  | message :: queue => some (message, { uplink with queue })

/-- Takes no more messages. -/
def close (uplink : Uplink) : Uplink :=
  { uplink with isOpen := false }

end Uplink

/-- A connection that has not started, seen from its handles. -/
structure Handles where
  /-- The connection still exists. -/
  isAlive : Bool := true
  /-- A shutdown was requested. -/
  stopRequested : Bool := false
  /-- The data sent so far. -/
  uplink : Uplink := {}
  /-- How many handles can request a shutdown. -/
  stoppers : Nat := 0
  /-- How many handles can send data. -/
  senders : Nat := 0

namespace Handles

/-- Hands out a handle that can request a shutdown. -/
def takeStopper (handles : Handles) : Handles :=
  if handles.isAlive then { handles with stoppers := handles.stoppers + 1 } else handles

/-- Hands out a handle that can send data. -/
def takeSender (handles : Handles) : Handles :=
  if handles.isAlive then { handles with senders := handles.senders + 1 } else handles

/-- Doubles a handle that can request a shutdown, which needs no connection. -/
def cloneStopper (handles : Handles) : Handles :=
  { handles with stoppers := handles.stoppers + 1 }

/-- Doubles a handle that can send data, which needs no connection. -/
def cloneSender (handles : Handles) : Handles :=
  { handles with senders := handles.senders + 1 }

/-- Requests a shutdown. -/
def stop (handles : Handles) : Handles :=
  { handles with stopRequested := true }

/-- Sends data. -/
def send (handles : Handles) (message : Bytes) : Except Error Handles :=
  (handles.uplink.send message).map fun uplink => { handles with uplink }

/-- Drops the connection. -/
def drop (handles : Handles) : Handles :=
  { handles with isAlive := false, uplink := handles.uplink.close }

end Handles

end NtripClient
