import ClusterBackup.Api.Session
import ClusterBackup.Worker.Watch
/-!
# The operator

The controller at work: an API session and a worker under one clock, with reconciles, events,
watches and whole runs.
-/

namespace ClusterBackup

/-- An operator: the session with the API, the settings, the worker, and the waits for keys made so
far. -/
structure Operator (τ : Type) where
  session : Api.Session τ
  settings : Settings τ
  worker : Worker τ
  waits : List τ := []

/-- What a watch amounts to: what was asked for, how many streams were opened, how many times one
was closed, and how many pauses were made. -/
structure WatchReport where
  request : WatchRequest
  opened : Nat
  closed : Nat
  pauses : Nat
deriving DecidableEq

/-- The report after the stream that was opened last, if there is one, was closed once more. -/
def WatchReport.closedAgain (r : WatchReport) : WatchReport :=
  { r with closed := r.closed + if r.opened = 0 then 0 else 1 }

/-- What a run amounts to: its watch, and for each look at the queue whether there was a key. -/
structure RunReport where
  watch : WatchReport
  processed : List Bool
deriving DecidableEq

namespace Operator

variable {τ : Type} [Seconds τ]

def start (settings : Settings τ) : Operator τ where
  session := { now := Seconds.zero }
  settings
  worker := .idle

def advance (o : Operator τ) (seconds : τ) : Except Breakdown Unit × Operator τ :=
  match Seconds.later? o.session.now seconds with
  | some now => (.ok (), { o with session := { o.session with now } })
  | none => (.error .beyondRange, o)

def change (o : Operator τ) (f : Api.Server → Api.Server) : Operator τ :=
  { o with session := { o.session with server := f o.session.server } }

def perform (o : Operator τ) (p : Api.Program τ (Except Fault Outcome)) :
    Except Fault Outcome × Operator τ :=
  let (result, session) := o.session.run p
  (result, { o with session })

def reconcileKey (o : Operator τ) (k : ObjectKey) : Except Fault Outcome × Operator τ :=
  o.perform (reconcile o.settings k)

def observe (o : Operator τ) (event : Event) : Except Breakdown Unit × Operator τ :=
  let (result, worker) := o.worker.observe o.session.now event
  (result, { o with worker })

def takeKey (o : Operator τ) (timeout : Option τ) :
    Except Breakdown (Option ObjectKey) × Operator τ :=
  let taken := o.worker.queue.take o.session.now timeout
  (taken.found, { o with
    session := { o.session with now := taken.now }
    worker := { o.worker with queue := taken.queue }
    waits := o.waits ++ taken.waits })

def conclude (o : Operator τ) (k : ObjectKey) (result : Except Fault Outcome) :
    Except Breakdown Unit × Operator τ :=
  let (r, worker) :=
    o.worker.finish o.session.now k (.ofResult o.settings.requeueAfter result)
  (r, { o with worker })

/-- Waits for a key and deals with it. Answers whether there was one. -/
def work (o : Operator τ) (timeout : Option τ) : Except Breakdown Bool × Operator τ :=
  match o.takeKey timeout with
  | (.error e, o) => (.error e, o)
  | (.ok none, o) => (.ok false, o)
  | (.ok (some k), o) =>
    let (result, o) := o.reconcileKey k
    let (r, o) := o.conclude k result
    (r.map fun () => true, o)

theorem work_of_error {o : Operator τ} {timeout : Option τ} {e : Breakdown}
    (h : (o.takeKey timeout).1 = .error e) :
    o.work timeout = (.error e, (o.takeKey timeout).2) := by
  unfold work
  generalize o.takeKey timeout = taken at h
  obtain ⟨found, o⟩ := taken
  obtain rfl : found = .error e := h
  rfl

theorem work_of_none {o : Operator τ} {timeout : Option τ} (h : (o.takeKey timeout).1 = .ok none) :
    o.work timeout = (.ok false, (o.takeKey timeout).2) := by
  unfold work
  generalize o.takeKey timeout = taken at h
  obtain ⟨found, o⟩ := taken
  obtain rfl : found = .ok none := h
  rfl

theorem work_of_some {o : Operator τ} {timeout : Option τ} {k : ObjectKey}
    (h : (o.takeKey timeout).1 = .ok (some k)) :
    o.work timeout =
      let reconciled := (o.takeKey timeout).2.reconcileKey k
      let concluded := reconciled.2.conclude k reconciled.1
      (concluded.1.map fun () => true, concluded.2) := by
  unfold work
  generalize o.takeKey timeout = taken at h
  obtain ⟨found, o⟩ := taken
  obtain rfl : found = .ok (some k) := h
  rfl

def followStreams (o : Operator τ) (ending : WatchEnd) (stop : Bool) (streams : List Stream) :
    Watch τ × Operator τ :=
  let watch := Watch.follow o.session.now ending streams { worker := o.worker, stop }
  (watch, { o with worker := watch.worker })

def report (o : Operator τ) (watch : Watch τ) : WatchReport :=
  ⟨o.settings.watchRequest, watch.opened, watch.closed, watch.pauses⟩

def watch (o : Operator τ) (streams : List Stream) : WatchReport × Operator τ :=
  let (watch, o) := o.followStreams .stops false streams
  (o.report watch, o)

def runTimeout : τ := ((1 : Nat) : τ)

def watchName : String := "backup-watch"

def joinTimeout : τ := ((10 : Nat) : τ)

def workTimes : Nat → Operator τ → Except Breakdown (List Bool) × Operator τ
  | 0, o => (.ok [], o)
  | n + 1, o =>
    match o.work (some runTimeout) with
    | (.error e, o) => (.error e, o)
    | (.ok there, o) =>
      let (rest, o) := workTimes n o
      (rest.map (there :: ·), o)

/-- Runs the controller: the watch goes on beside it, and a stop is called for after the queue was
looked at a number of times, unless that was done before. The stream that was opened last is
closed once more at the end. -/
def run (o : Operator τ) (streams : List Stream) (looks : Nat) (stop : Bool) :
    Except Breakdown RunReport × Operator τ :=
  let (watch, o) := o.followStreams .parks stop streams
  match o.workTimes (if watch.stop then 0 else looks) with
  | (.error e, o) => (.error e, o)
  | (.ok processed, o) =>
    let report := o.report watch
    (.ok ⟨report.closedAgain, processed⟩, o)

def cleared (o : Operator τ) : Operator τ := { o with session := o.session.cleared, waits := [] }

end Operator

end ClusterBackup
