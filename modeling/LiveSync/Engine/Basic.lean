import LiveSync.Engine.Interests
import LiveSync.Engine.Notice
import LiveSync.Engine.Turns

/-!
# The engine

The **engine** is the part of a client that needs no connection: the cache,
the watch for turns, the error that is shown, and the interests. Its
operations are those of its parts; the few that concern two of them are
here.
-/

namespace LiveSync

open LiveSync.Wire

/-- **The state of a client** apart from its connection. -/
structure Engine where
  cache : Cache
  turns : Turns
  notice : Notice
  interests : Interests
deriving DecidableEq, Repr

namespace Engine

/-- Nothing is known and nothing is wanted. -/
def initial : Engine := ⟨.empty, .empty, .none, .empty⟩

instance : Inhabited Engine := ⟨initial⟩

/-- An operation on the cache. -/
def onCache {α : Type} (e : Engine) (op : Cache → Update Cache α) : Update Engine α :=
  (op e.cache).within fun c => { e with cache := c }

/-- An operation on the watches, which look at the cache. -/
def onTurns {α : Type} (e : Engine) (op : Turns → Cache → Update Turns α) : Update Engine α :=
  (op e.turns e.cache).within fun t => { e with turns := t }

/-- An operation on the error that is shown. -/
def onNotice {α : Type} (e : Engine) (op : Notice → Update Notice α) : Update Engine α :=
  (op e.notice).within fun n => { e with notice := n }

/-- Starts to watch an entity for turns. -/
def watch (e : Engine) (id : EntityId) (seat : Option Seat) : Engine :=
  { e with turns := e.turns.watch e.cache id seat }

/-- Ends the watch of an entity. -/
def unwatch (e : Engine) (id : EntityId) : Engine := { e with turns := e.turns.unwatch id }

/-- The server says that a long wait is over. -/
def invalidated (e : Engine) (id : Option EntityId) : Update Engine Unit :=
  ⟨e, (), [.waitInvalidated id]⟩

/-- **Takes a subscription**: the frame to send, if it is the first one. -/
def subscribe (e : Engine) (topic : Topic) : Engine × Option ClientFrame :=
  let (i, frame) := e.interests.acquire topic
  ({ e with interests := i }, frame)

/-- **Gives a subscription up**: the frame to send, if it was the last one. -/
def unsubscribe (e : Engine) (s : Subscription) : Engine × Option ClientFrame :=
  let (i, frame) := e.interests.release s.topic
  let e := { e with interests := i }
  (if frame.isSome ∧ s.endsWatch then e.unwatch s.topic.entityId else e, frame)

end Engine

end LiveSync
