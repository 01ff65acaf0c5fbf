/-!
# Broadcast channels

A **channel** hands every item to every receiver that is there when the
item is published. It keeps a limited number of items, a power of two. A
receiver that falls further behind loses the oldest ones: its next read
reports how many it lost, once, and the one after that gives the oldest
item that is still kept.

The model keeps all items that were ever published, and a receiver is a
place in that list. What the channel has dropped is then what lies before
`Channel.oldest`.
-/

namespace LiveSync

/-- **A broadcast channel** with its receivers. -/
structure Channel (α : Type) where
  /-- How many items are kept. -/
  capacity : Nat
  /-- Everything that was published, oldest first. -/
  log : List α
  /-- For each receiver the place of the next item it reads; nothing, once
  it is gone. -/
  cursors : List (Option Nat)
deriving Repr

/-- **What a read finds.** -/
inductive Reading (α : Type) where
  /-- There is nothing to read. -/
  | empty
  /-- So many items were lost. -/
  | lagged (lost : Nat)
  | item (x : α)
deriving DecidableEq, Repr

namespace Channel

variable {α : Type}

/-- The least power of two that is at least `n`, looked for from `p` on. -/
def powerFrom : Nat → Nat → Nat → Nat
  | 0, p, _ => p
  | fuel + 1, p, n => if n ≤ p then p else powerFrom fuel (2 * p) n

/-- The least power of two that is at least `n`. -/
def nextPower (n : Nat) : Nat := powerFrom n 1 n

/-- A channel that keeps at least `capacity` items, and has no receiver. -/
def withCapacity (capacity : Nat) : Channel α := ⟨nextPower capacity, [], []⟩

/-- The place of the oldest item that is kept. -/
def oldest (c : Channel α) : Nat := c.log.length - c.capacity

/-- How many receivers there are. -/
def receivers (c : Channel α) : Nat := (c.cursors.filter Option.isSome).length

/-- Publishes an item. -/
def publish (c : Channel α) (x : α) : Channel α := { c with log := c.log ++ [x] }

/-- Adds a receiver, which reads what is published from now on. Its number
is the number of receivers there were before. -/
def subscribe (c : Channel α) : Channel α × Nat :=
  ({ c with cursors := c.cursors ++ [some c.log.length] }, c.cursors.length)

/-- Takes a receiver away. -/
def drop (c : Channel α) (receiver : Nat) : Channel α :=
  { c with cursors := c.cursors.set receiver none }

/-- Moves a receiver. -/
def moveTo (c : Channel α) (receiver place : Nat) : Channel α :=
  { c with cursors := c.cursors.set receiver (some place) }

/-- **What a receiver reads next.** -/
def peek (c : Channel α) (receiver : Nat) : Reading α :=
  match c.cursors[receiver]? with
  | some (some place) =>
    if place < c.oldest then .lagged (c.oldest - place)
    else
      match c.log[place]? with
      | some x => .item x
      | none => .empty
  | _ => .empty

/-- Where a receiver stands after its next read. -/
def advance (c : Channel α) (receiver : Nat) : Channel α :=
  match c.cursors[receiver]? with
  | some (some place) =>
    if place < c.oldest then c.moveTo receiver c.oldest
    else if place < c.log.length then c.moveTo receiver (place + 1)
    else c
  | _ => c

/-- **Reads one item.** -/
def receive (c : Channel α) (receiver : Nat) : Channel α × Reading α :=
  (c.advance receiver, c.peek receiver)

/-- How many reads find something. -/
def waiting (c : Channel α) (receiver : Nat) : Nat :=
  match c.cursors[receiver]? with
  | some (some place) =>
    if place < c.oldest then c.log.length - c.oldest + 1 else c.log.length - place
  | _ => 0

/-- Reads everything there is. -/
def drain (c : Channel α) (receiver : Nat) : Channel α × List (Reading α) :=
  go (c.waiting receiver) c
where
  /-- So many reads. -/
  go : Nat → Channel α → Channel α × List (Reading α)
    | 0, c => (c, [])
    | n + 1, c =>
      let (c, r) := c.receive receiver
      let (c, rs) := go n c
      (c, r :: rs)

/-- Reads up to the next item that satisfies `p`, passing over what does
not and over what was lost. -/
def receiveWhere (c : Channel α) (receiver : Nat) (p : α → Bool) : Channel α × Option α :=
  go (c.waiting receiver) c
where
  /-- At most so many reads. -/
  go : Nat → Channel α → Channel α × Option α
    | 0, c => (c, none)
    | n + 1, c =>
      match c.receive receiver with
      | (c, .item x) => if p x then (c, some x) else go n c
      | (c, _) => go n c

end Channel

end LiveSync
