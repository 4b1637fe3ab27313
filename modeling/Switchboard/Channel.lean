import Switchboard.Bytes

/-!
# Outbound channels

The frames on their way to one client wait in a channel with a fixed number of places.  Putting one
in never waits: it fails if the channel is full, or if nobody takes frames out any more.
-/

namespace Switchboard

/-- A bounded queue of encoded frames. -/
structure Channel where
  /-- The number of free places. -/
  room : Nat
  /-- The frames in the channel, latest first. -/
  latest : List Bytes
  /-- Whether somebody takes frames out. -/
  received : Bool
  deriving Repr, DecidableEq

/-- Why a frame cannot be put into a channel. -/
inductive SendFault where
  | full
  | closed
  deriving Repr, DecidableEq

namespace Channel

/-- An empty channel. -/
def new (capacity : Nat) : Channel := ⟨capacity, [], true⟩

/-- The frames in the channel, oldest first. -/
def frames (channel : Channel) : List Bytes :=
  channel.latest.reverse

/-- The number of places, free or not. -/
def capacity (channel : Channel) : Nat :=
  channel.room + channel.latest.length

/-- Puts a frame at the end. -/
def send (channel : Channel) (frame : Bytes) : Except SendFault Channel :=
  if !channel.received then .error .closed
  else if channel.room = 0 then .error .full
  else .ok { channel with room := channel.room - 1, latest := frame :: channel.latest }

/-- Takes out the first frames, at most `count` of them. -/
def receive (channel : Channel) (count : Nat) : List Bytes × Channel :=
  let taken := channel.frames.take count
  let left := channel.frames.drop count
  (taken, { channel with room := channel.room + taken.length, latest := left.reverse })

/-- Takes out all frames. -/
def receiveAll (channel : Channel) : List Bytes × Channel :=
  channel.receive channel.latest.length

/-- The channel once nobody takes frames out any more: those inside are lost. -/
def abandon (channel : Channel) : Channel :=
  { channel with room := channel.capacity, latest := [], received := false }

/-- A frame that the channel takes comes after those inside. -/
theorem frames_of_send {channel after : Channel} {frame : Bytes}
    (h : channel.send frame = .ok after) : after.frames = channel.frames ++ [frame] := by
  unfold send at h
  split at h
  · cases h
  · split at h <;> cases h
    simp [frames]

/-- Sending does not change the number of places. -/
theorem capacity_of_send {channel after : Channel} {frame : Bytes}
    (h : channel.send frame = .ok after) : after.capacity = channel.capacity := by
  unfold send at h
  split at h
  · cases h
  · split at h <;> cases h
    simp only [capacity, List.length_cons]
    omega

/-- Receiving does not change the number of places. -/
theorem capacity_receive (channel : Channel) (count : Nat) :
    (channel.receive count).2.capacity = channel.capacity := by
  simp only [receive, capacity, frames, List.length_reverse, List.length_take, List.length_drop]
  omega

/-- What is taken out and what is left were in the channel before, in this order. -/
theorem receive_append_frames (channel : Channel) (count : Nat) :
    (channel.receive count).1 ++ (channel.receive count).2.frames = channel.frames := by
  simp [receive, frames]

end Channel

end Switchboard
