import Steward.Backend.Connector
import Steward.Supervision.Deed
import Steward.Template.Monitor

/-!
# Workers

A worker looks after one resource. It connects the backends one after the other, in their order; an
attempt that failed is repeated after a fixed pause until it succeeds or turns out to be not
configured. Then it has the resource built, and a monitor works on it. At the end the worker closes
the sessions that it has obtained.

A worker is asked to stop at a given time, or never. It does not begin an attempt at or after that
time, and does not wait for one beyond it. When something breaks down, it closes its sessions and
says nothing more.

The life of a worker depends on nothing but the worker, the time at which it is asked to stop, and
what the world is like at each time. It may go on forever; so it is told for a limited number of
attempts on each backend.

This is the `ResourceWorker`: `life` is its `run`, `connectAll` is `connect_all`, `connect` is
`connect_one`, and `buildAndWatch` is `build_and_watch`.
-/

namespace Steward.Supervision

open Backend (Client ClientSet Connector ConnectDelay)

/-- What a worker has to do. -/
structure Worker where
  /-- The name of the resource. -/
  name : String
  /-- The connectors of its backends, in order. -/
  connectors : List Connector
  /-- The templates. -/
  templates : List Config.Template := []
  /-- What builds the resource. -/
  factory : Template.Factory
  /-- The pause between two attempts, in milliseconds. -/
  retryDelay : Nat := 2000

/-- What surrounds a worker. -/
structure Surroundings where
  /-- When it is asked to stop. -/
  stop : Option Nat := none
  /-- The world at each time. -/
  world : Nat → World

/-- True if a worker was asked to stop by a time. -/
def Surroundings.stopped (s : Surroundings) (time : Nat) : Bool := s.stop.any (· ≤ time)

/-- The moment at which a worker that waits hears that it is asked to stop. -/
def Surroundings.stopMoment (s : Surroundings) (m : Moment) : Moment :=
  m.awaken (s.stop.getD m.time)

/-- How a part of a life ends. -/
inductive Ending where
  /-- The part is complete. -/
  | reached (m : Moment)
  /-- The worker was asked to stop. -/
  | stopped (m : Moment)
  /-- Something broke down. -/
  | broken (m : Moment)
  /-- The part goes on for longer than it is told, which is up to a time. -/
  | pending (time : Nat)
  deriving DecidableEq, Repr

/-- The time up to which a part is told that goes on for longer. -/
def Ending.told? : Ending → Option Nat
  | pending time => some time
  | _ => none

/-- A part of a life. -/
structure Passage where
  /-- The deeds. -/
  entries : List Entry := []
  /-- The clients that were obtained. -/
  clients : List Client := []
  /-- Its end. -/
  ending : Ending

namespace Worker

/-- An event about the resource. -/
def event (w : Worker) (kind : EventKind) : Event := { kind, resource := some w.name }

/-- An event about a backend. -/
def backendEvent (w : Worker) (kind : EventKind) (c : Connector) : Event :=
  { w.event kind with backend := some c.name }

/-! ## Connecting -/

/-- The moment at which an attempt is over. -/
def attemptEnd (m : Moment) : ConnectDelay → Moment
  | .none => m
  | .file => m.afterFile
  | .sleep ms => m.later ms

/-- The events after a failed attempt. -/
def failureEvents (w : Worker) (c : Connector) (attempt : Nat) (e : Backend.ConnectError) :
    List Event :=
  [{ (w.backendEvent .backendConnectFailed c).withAttempt attempt with reason := some e.message },
    ((w.backendEvent .retryScheduled c).withAttempt attempt).withDelay (w.retryDelay * 1000000)]

/-- Connects a backend from a moment on, behind `before` attempts; at most `tries` attempts are
    told. -/
def connect (w : Worker) (s : Surroundings) (position : Nat) (c : Connector) :
    (tries : Nat) → (before : Nat) → Moment → Passage
  | 0, _, m => { ending := .pending m.time }
  | tries + 1, before, m =>
    if s.stopped m.time then { ending := .stopped m }
    else
      let attempt := c.attempt before
      let begun : Entry := ⟨m, .attempt position c.name⟩
      let done := attemptEnd m attempt.delay
      if s.stopped done.time then { entries := [begun], ending := .stopped (s.stopMoment m) }
      else
        match attempt.outcome (s.world done.time) with
        | .connected client =>
          let connected := (w.backendEvent .backendConnected c).withAttempt (before + 1)
          { entries := [begun, ⟨done, .obtain position⟩, ⟨done, .publish connected⟩]
            clients := [{ client with session := position }]
            ending := .reached done }
        | .failed .notConfigured =>
          { entries := [begun, ⟨done, .publish (w.backendEvent .backendSkipped c)⟩]
            ending := .reached done }
        | .failed e =>
          let failed := (w.failureEvents c (before + 1) e).map fun e => Entry.mk done (.publish e)
          let again := done.later w.retryDelay
          if s.stopped again.time then
            { entries := begun :: failed, ending := .stopped (s.stopMoment done) }
          else
            let rest := w.connect s position c tries (before + 1) again
            { rest with entries := begun :: failed ++ rest.entries }
        | .broken => { entries := [begun], ending := .broken done }

/-- Connects backends at given positions one after the other. -/
def connectAll (w : Worker) (s : Surroundings) (tries : Nat) :
    List (Connector × Nat) → Moment → Passage
  | [], m => { ending := .reached m }
  | (c, position) :: others, m =>
    let first := w.connect s position c tries 0 m
    match first.ending with
    | .reached m =>
      let rest := w.connectAll s tries others m
      { entries := first.entries ++ rest.entries
        clients := first.clients ++ rest.clients
        ending := rest.ending }
    | _ => first

/-! ## Building and watching -/

/-- The readings of a monitor from a moment on, `again` of them after the first one, and the moment
    of the last one. -/
def readings (s : Surroundings) (clients : List Client) (pause : Nat) :
    (again : Nat) → Moment → List Entry × Moment
  | again, m =>
    let m := if clients.any Client.readsFile then m.afterFile else m
    let entry : Entry := ⟨m, .read (clients.map fun c => c.values (s.world m.time))⟩
    match again with
    | 0 => ([entry], m)
    | again + 1 =>
      let rest := readings s clients pause again (m.later pause)
      (entry :: rest.1, rest.2)

/-- What a monitor reads that works from a moment until a time, and the last moment of it. -/
def monitorReadings (s : Surroundings) (clients : List Client) (monitor : Template.Monitor)
    (m : Moment) (endTime : Nat) : List Entry × Moment :=
  if monitor.reading = .never then ([], m)
  else readings s clients monitor.readingPause (monitor.rereadings m.time endTime) m

/-- The work of a monitor from a moment on. One that does not end is told up to `horizon`. -/
def watch (s : Surroundings) (horizon : Nat) (clients : List Client) (monitor : Template.Monitor)
    (m : Moment) : Passage :=
  let begun : Entry := ⟨m, .watch (s.stopped m.time)⟩
  match monitor.endTime m.time s.stop with
  | none =>
    let work := monitorReadings s clients monitor m (horizon + 1)
    { entries := begun :: work.1, ending := .pending horizon }
  | some time =>
    let work := monitorReadings s clients monitor m time
    let done := work.2.later (time - work.2.time)
    let dismissed : Entry := ⟨done, .dismiss⟩
    if monitor.breaks then
      { entries := begun :: work.1 ++ [dismissed], ending := .broken done }
    else
      { entries := begun :: work.1 ++ [⟨done, .watched⟩, dismissed], ending := .reached done }

/-- Has the resource built from clients at a moment, and watches it. -/
def buildAndWatch (w : Worker) (s : Surroundings) (horizon : Nat) (clients : List Client)
    (m : Moment) : Passage :=
  let build : Entry := ⟨m, .build clients w.templates⟩
  match w.factory w.name clients w.templates with
  | .refused e =>
    let failed := { w.event .resourceBuildFailed with reason := some e.message }
    { entries := [build, ⟨m, .publish failed⟩], ending := .reached m }
  | .broken => { entries := [build], ending := .broken m }
  | .built monitor =>
    let work := watch s horizon clients monitor m
    { work with entries := build :: ⟨m, .publish (w.event .resourceWatching)⟩ :: work.entries }

/-! ## The life of a worker -/

/-- The closing of sessions. -/
def closings (clients : List Client) (m : Moment) : List Entry :=
  clients.map fun c => ⟨m, .close c.session c.name⟩

/-- The last deeds of a worker that has not broken down: it releases its clients, tells how many
    there were, and gives up the set that is left. -/
def farewell (w : Worker) (clients : ClientSet) (m : Moment) : List Entry :=
  let (released, left) := clients.release
  closings released m ++
    [⟨m, .publish (w.event .resourceStopped)⟩,
      ⟨m, .publish ((w.event .backendsReleased).withReleased released.length)⟩] ++
    closings left.abandon m

/-- The last deeds of a worker that has broken down: it gives up its clients. -/
def collapse (clients : ClientSet) (m : Moment) : List Entry :=
  closings clients.abandon m ++ [⟨m, .breakDown⟩]

/-- The deeds after all backends were connected, or after connecting them has ended. -/
def afterConnecting (w : Worker) (s : Surroundings) (horizon : Nat) (p : Passage) : Passage :=
  match p.ending with
  | .reached m =>
    let work := w.buildAndWatch s horizon p.clients m
    { p with entries := p.entries ++ work.entries, ending := work.ending }
  | _ => p

/-- The last deeds of a worker. -/
def conclude (w : Worker) (p : Passage) : Passage :=
  match p.ending with
  | .reached m => { p with entries := p.entries ++ w.farewell ⟨p.clients⟩ m }
  | .stopped m => { p with entries := p.entries ++ w.farewell ⟨p.clients⟩ m }
  | .broken m => { p with entries := p.entries ++ collapse ⟨p.clients⟩ m }
  | .pending _ => p

/-- How many attempts fit into a length of time, if they fail at once, and two more. -/
def triesWithin (w : Worker) (horizon : Nat) : Nat := horizon / max w.retryDelay 1 + 2

/-- The life of a worker, up to a time at least. -/
def life (w : Worker) (s : Surroundings) (horizon : Nat) : Passage :=
  let start : Entry := ⟨{}, .publish (w.event .resourceStarting)⟩
  let connecting := w.connectAll s (w.triesWithin horizon) w.connectors.zipIdx {}
  let all := w.conclude (w.afterConnecting s horizon connecting)
  { all with entries := start :: all.entries }

end Worker

end Steward.Supervision
