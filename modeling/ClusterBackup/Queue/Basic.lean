import ClusterBackup.Clock.Seconds
import ClusterBackup.Queue.Heap
/-!
# Queues of delayed keys

A key that is put into the queue comes out when its deadline is reached, the earliest one first;
of several deadlines for one key only the earliest counts. The heap may hold entries that no
longer count. They are dropped when they come to its top.

An operation that breaks down leaves the queue as it has become up to there.
-/

namespace ClusterBackup

structure Entry (τ κ : Type) where
  due : τ
  key : κ

/-- Entries are ordered by their deadlines, and those due at the same time by their keys. -/
instance {τ κ : Type} [Seconds τ] [Ranked κ] : Ranked (Entry τ κ) where
  before? a b :=
    if Seconds.same a.due b.due then Ranked.before? a.key b.key else some (Seconds.lt a.due b.due)

inductive Breakdown where
  /-- There is no key to wait for, and no limit to the wait. -/
  | idleForEver
  /-- A delay cannot be added to a time. -/
  | beyondRange
  /-- There is no order between two keys. -/
  | unordered
  /-- A list or an object is no key. -/
  | noKey
deriving DecidableEq

def Breakdown.message? : Breakdown → Option String
  | idleForEver => some "waits for ever"
  | beyondRange => some "int too large to convert to float"
  | unordered => none
  | noKey => none

/-- A queue: the deadlines by key, and a heap that holds each of them. -/
structure Queue (τ κ : Type) [BEq κ] where
  deadlines : Table κ τ
  heap : Heap (Entry τ κ)

/-- A wait for a key: the key, or nothing if the time ran out; the queue and the time afterwards;
and the waits made. -/
structure Taken (τ κ : Type) [BEq κ] where
  found : Except Breakdown (Option κ)
  queue : Queue τ κ
  now : τ
  waits : List τ

namespace Queue

variable {τ κ : Type} [BEq κ]

def empty : Queue τ κ := ⟨.empty, .empty⟩

def size (q : Queue τ κ) : Nat := q.deadlines.size

def deadline? (q : Queue τ κ) (k : κ) : Option τ := q.deadlines.find? k

def discard (q : Queue τ κ) (k : κ) : Queue τ κ := { q with deadlines := q.deadlines.erase k }

/-- Removes what may be a key. An empty queue does not look at what it is given. -/
def withdraw (q : Queue τ κ) (k? : Option κ) : Except Breakdown Unit × Queue τ κ :=
  match k? with
  | some k => (.ok (), q.discard k)
  | none => (if q.size = 0 then .ok () else .error .noKey, q)

variable [Seconds τ] [Ranked κ]

def put (q : Queue τ κ) (k : κ) (due : τ) : Except Breakdown Unit × Queue τ κ :=
  let (ordered, heap) := q.heap.insert ⟨due, k⟩
  (if ordered then .ok () else .error .unordered, ⟨q.deadlines.insert k due, heap⟩)

/-- Puts a key under a deadline, unless it is due no later already. -/
def putBefore (q : Queue τ κ) (k : κ) (due : τ) : Except Breakdown Unit × Queue τ κ :=
  match q.deadline? k with
  | some current => if Seconds.le current due then (.ok (), q) else q.put k due
  | none => q.put k due

/-- Adds what may be a key. It is due after a delay, unless it is due no later already. -/
def offer (q : Queue τ κ) (now : τ) (k? : Option κ) (delay : τ) :
    Except Breakdown Unit × Queue τ κ :=
  match Seconds.later? now (Seconds.longer Seconds.zero delay), k? with
  | none, _ => (.error .beyondRange, q)
  | some _, none => (.error .noKey, q)
  | some due, some k => q.putBefore k due

def add (q : Queue τ κ) (now : τ) (k : κ) (delay : τ) : Except Breakdown Unit × Queue τ κ :=
  q.offer now (some k) delay

def counts (q : Queue τ κ) (e : Entry τ κ) : Bool :=
  match q.deadline? e.key with
  | some due => Seconds.same due e.due
  | none => false

/-- Takes the entry on top off the heap. Answers whether the rest could be put in order. -/
def dropTop (q : Queue τ κ) : Bool × Queue τ κ :=
  let (ordered, heap) := q.heap.pop
  (ordered, { q with heap })

/-- Drops entries from the top of the heap, at most the given number, until one counts. -/
def cleanUpTo : Nat → Queue τ κ → Bool × Queue τ κ
  | 0, q => (true, q)
  | n + 1, q =>
    match q.heap.top? with
    | some e =>
      if q.counts e then (true, q)
      else
        let (ordered, q) := q.dropTop
        if ordered then cleanUpTo n q else (false, q)
    | none => (true, q)

def clean (q : Queue τ κ) : Bool × Queue τ κ := cleanUpTo q.heap.size q

def dueKey? (q : Queue τ κ) (now : τ) : Option κ :=
  match q.heap.top? with
  | some e => if Seconds.le e.due now then some e.key else none
  | none => none

def takeTop (q : Queue τ κ) (k : κ) : Except Breakdown (Option κ) × Queue τ κ :=
  let (ordered, q) := q.dropTop
  if ordered then (.ok (some k), q.discard k) else (.error .unordered, q)

def isOver (now : τ) (giveUp : Option τ) : Bool :=
  match giveUp with
  | some limit => Seconds.le (limit - now) Seconds.zero
  | none => false

/-- How long to wait for an entry, if there is one, and not past the time to give up, if there is
one. -/
def waitFor? (now : τ) (top : Option (Entry τ κ)) (giveUp : Option τ) : Option τ :=
  match top, giveUp with
  | some e, some limit => some (Seconds.shorter (e.due - now) (limit - now))
  | some e, none => some (e.due - now)
  | none, some limit => some (limit - now)
  | none, none => none

/-- Waits for a key, at most the given number of times, after the waits already made. -/
def await : (waitsLeft : Nat) → Queue τ κ → (now : τ) → (giveUp : Option τ) → (waits : List τ) →
    Taken τ κ
  | 0, q, now, _, waits => ⟨.error .idleForEver, q, now, waits⟩
  | n + 1, q, now, giveUp, waits =>
    let (ordered, q) := q.clean
    if !ordered then ⟨.error .unordered, q, now, waits⟩
    else
      match q.dueKey? now with
      | some k =>
        let (found, q) := q.takeTop k
        ⟨found, q, now, waits⟩
      | none =>
        if isOver now giveUp then ⟨.ok none, q, now, waits⟩
        else
          match waitFor? now q.heap.top? giveUp with
          | some wait => await n q (now + wait) giveUp (waits ++ [wait])
          | none => ⟨.error .idleForEver, q, now, waits⟩

/-- How often one wait is resumed. Rounding can end a wait early, but it does not do so for long:
the times left to wait become so small that they are exact. -/
def mostWaits : Nat := 16

/-- Waits until a key is due or the time is out, and takes the key. Only the wait itself lets time
pass. -/
def take (q : Queue τ κ) (now : τ) (timeout : Option τ) : Taken τ κ :=
  match timeout with
  | none => q.await mostWaits now none []
  | some timeout =>
    match Seconds.later? now timeout with
    | some giveUp => q.await mostWaits now (some giveUp) []
    | none => ⟨.error .beyondRange, q, now, []⟩

def pending? (q : Queue τ κ) : Option (List (κ × τ)) := q.deadlines.sorted?

end Queue

end ClusterBackup
