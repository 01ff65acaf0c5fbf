import LiveSync.Table
import LiveSync.Wire.Frame

/-!
# Interests

Whoever wants the states of an entity holds a **subscription** to its
topic. The interests count the holders. The first holder of a topic makes
the client subscribe, the last one to let go makes it unsubscribe; between
the two the server hears nothing.

The topics are kept in the order in which interest in them began, and are
subscribed to in that order on every new connection.
-/

namespace LiveSync

open LiveSync.Wire

/-- **How many hold each topic.** -/
structure Interests where
  /-- The number of holders of each topic, counted without a bound: a counter of
  64 bits has room for more holders than a client can ever have, and its overflow
  is left out. -/
  counts : Table Topic Nat
deriving DecidableEq, Repr

namespace Interests

/-- Nobody is interested in anything. -/
def empty : Interests := ⟨.empty⟩

instance : Inhabited Interests := ⟨empty⟩

/-- How many hold a topic. -/
def interest (i : Interests) (topic : Topic) : Nat := (i.counts.get? topic).getD 0

/-- The topics that somebody holds. -/
def topics (i : Interests) : List Topic := i.counts.keys

/-- What is sent on a new connection. -/
def resubscribeFrames (i : Interests) : List ClientFrame := i.topics.map .subscribe

/-- **One more holder**, and the frame to send if it is the first. -/
def acquire (i : Interests) (topic : Topic) : Interests × Option ClientFrame :=
  let n := i.interest topic + 1
  (⟨i.counts.insert topic n⟩, if n = 1 then some (.subscribe topic) else none)

/-- **One holder less**, and the frame to send if it was the last. -/
def release (i : Interests) (topic : Topic) : Interests × Option ClientFrame :=
  match i.interest topic with
  | 0 => (i, none)
  | 1 => (⟨i.counts.erase topic⟩, some (.unsubscribe topic))
  | n + 2 => (⟨i.counts.insert topic (n + 1)⟩, none)

end Interests

/-- **A subscription**: a held topic. -/
structure Subscription where
  topic : Topic
  /-- Whether the entity is no longer watched for turns once the last holder
  lets go by giving up this subscription. -/
  endsWatch : Bool
deriving DecidableEq, Repr, Inhabited

/-- What a programmer sees of a subscription. -/
def Subscription.debugText (s : Subscription) : String :=
  match s.topic with
  | .game id => "Subscription \x7b topic: Game \x7b id: " ++ Decimal.intText id.toInt
      ++ " \x7d \x7d"

end LiveSync
