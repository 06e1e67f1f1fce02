/-
# Delivery — when a stored message is due

A message whose time lies in the future when it is stored is scheduled, all
others are published at once.  A poll asks for the messages since some time.
-/
import MessageCache.Message.Basic
import MessageCache.Text.Utf8

namespace MessageCache

/-- Whether a stored message was delivered. -/
inductive DeliveryState where
  | scheduled
  | published
deriving DecidableEq

namespace DeliveryState

/-- The state of a message that is stored at the time `now`. -/
def atInsert (time now : Int64) : DeliveryState :=
  if time ≤ now then .published else .scheduled

def isPublished (s : DeliveryState) : Bool := s = .published

/-- The state that a flag stands for. -/
def ofFlag (flag : Bool) : DeliveryState := if flag then .published else .scheduled

end DeliveryState

/-- What a poll asks for. -/
inductive Since where
  /-- No stored messages at all. -/
  | noMessages
  /-- Everything that is still stored. -/
  | all
  /-- Messages from this time on. -/
  | at (time : Int64)
deriving DecidableEq

namespace Since

def isNone (s : Since) : Bool := s = .noMessages

/-- The least time asked for, if anything is. -/
def timestamp : Since → Option Int64
  | .noMessages => none
  | .all => some 0
  | .at time => some time

end Since

/-- A topic: what messages are grouped by. -/
structure Topic where
  id : String
deriving DecidableEq

/-- Topics are ordered by the bytes of their ids. -/
def Topic.le (a b : Topic) : Bool := Utf8.bytes a.id ≤ Utf8.bytes b.id

end MessageCache
