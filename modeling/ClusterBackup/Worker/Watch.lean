import ClusterBackup.Worker.Basic
/-!
# Watching

Backups are watched through streams of events, opened one after the other until a stop is called
for. A stream that ends with an error, or with an event that cannot be read or taken note of, is
followed by a pause before the next one is opened. Every stream that was opened is closed once.
-/

namespace ClusterBackup

/-- What is watched, and for how long at a time: the backups of one namespace, or all of them. -/
structure WatchRequest where
  ns : Option String
  seconds : Int
deriving DecidableEq

def Settings.watchRequest {τ : Type} (s : Settings τ) : WatchRequest where
  ns := match s.ns with
    | .text ns => if ns = "" then none else some ns
    | .nothing => none
  seconds := s.watchSeconds

/-- A stream: its events, the error that ends it, and when a stop is called for: just before the
event of a number, while the event of a number is taken note of, at the end of the stream, or in
the pause after it. -/
structure Stream where
  events : List Json
  stopBefore : Option Nat
  failure : Option Api.Failure
  stopDuring : Option Nat := none
  stopAtEnd : Bool := false
  stopInPause : Bool := false

/-- What happens when a stream is opened and there are none left. -/
inductive WatchEnd where
  /-- The stream has no events, and a stop is called for. -/
  | stops
  /-- The watch is left waiting for events. -/
  | parks
deriving DecidableEq

def WatchEnd.stream (ending : WatchEnd) : Stream where
  events := []
  stopBefore := none
  failure := none
  stopAtEnd := ending = .stops

inductive StreamEnd where
  | usual
  | broken
deriving DecidableEq

inductive WatchDeed (τ : Type) where
  | opens
  | heeds (event : Json)
  | pauses (seconds : τ)
  | closes
deriving DecidableEq

namespace WatchDeed

variable {τ : Type}

def isOpening : WatchDeed τ → Bool
  | opens => true
  | _ => false

def isPause : WatchDeed τ → Bool
  | pauses _ => true
  | _ => false

def isClosing : WatchDeed τ → Bool
  | closes => true
  | _ => false

end WatchDeed

/-- A watch: its worker, whether a stop is called for, and what it has done so far, in order. -/
structure Watch (τ : Type) where
  worker : Worker τ
  stop : Bool
  deeds : List (WatchDeed τ) := []

/-- Takes note of an event as it is reported. Answers whether the event could be read and taken
note of. -/
def Worker.heed {τ : Type} [Seconds τ] (w : Worker τ) (now : τ) (event : Json) : Bool × Worker τ :=
  match Event.ofJson event with
  | .error _ => (false, w)
  | .ok event =>
    match w.observe now event with
    | (.ok (), w) => (true, w)
    | (.error _, w) => (false, w)

namespace Watch

variable {τ : Type}

def opened (w : Watch τ) : Nat := w.deeds.countP WatchDeed.isOpening

def closed (w : Watch τ) : Nat := w.deeds.countP WatchDeed.isClosing

def pauses (w : Watch τ) : Nat := w.deeds.countP WatchDeed.isPause

def note (w : Watch τ) (d : WatchDeed τ) : Watch τ := { w with deeds := w.deeds ++ [d] }

def stopIf (w : Watch τ) (called : Bool) : Watch τ := { w with stop := w.stop || called }

variable [Seconds τ]

def pauseSeconds : τ := ((1 : Nat) : τ)

def heed (w : Watch τ) (now : τ) (event : Json) : Bool × Watch τ :=
  let (heeded, worker) := w.worker.heed now event
  (heeded, { w with worker }.note (.heeds event))

/-- Plays the events of a stream from the given number on. Those that come after a stop was called
for are not looked at. -/
def play (now : τ) (stream : Stream) : (index : Nat) → List Json → Watch τ → StreamEnd × Watch τ
  | _, [], w => (if stream.failure.isSome then .broken else .usual, w.stopIf stream.stopAtEnd)
  | index, event :: events, w =>
    let w := w.stopIf (stream.stopBefore == some index)
    if w.stop then (.usual, w)
    else
      let (heeded, w) := w.heed now event
      let w := w.stopIf (stream.stopDuring == some index)
      if heeded then play now stream (index + 1) events w else (.broken, w)

def pauseAfter (w : Watch τ) (stream : Stream) : StreamEnd → Watch τ
  | .usual => w
  | .broken => (w.note (.pauses pauseSeconds)).stopIf stream.stopInPause

def playStream (w : Watch τ) (now : τ) (stream : Stream) : Watch τ :=
  let (ended, w) := play now stream 0 stream.events (w.note .opens)
  (w.pauseAfter stream ended).note .closes

def playAll (now : τ) : List Stream → Watch τ → Watch τ
  | [], w => w
  | stream :: streams, w => if w.stop then w else playAll now streams (w.playStream now stream)

def follow (now : τ) (ending : WatchEnd) (streams : List Stream) (w : Watch τ) : Watch τ :=
  playAll now (streams ++ [ending.stream]) w

end Watch

end ClusterBackup
