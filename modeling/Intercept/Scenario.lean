import Intercept.Driver.Memory.Request
import Intercept.Driver.Script
import Intercept.Station

set_option autoImplicit false

/-! # Scenarios

A scenario is a station whose driver is a memory driver or a scripted one, worked through step by
step with a loop that never lags behind: before each step it makes all the moves it can, so that
a step always finds it waiting, blocked on a full queue, or ended. Steps that would wait for the
loop, or that a loop at work makes a matter of luck, are skipped. Beside the steps of a station
there are those that look at the session as a whole and those that speak to the driver. -/

namespace Intercept

/-- The number of slots that the steps of a scenario may name. -/
abbrev slotCount : Nat := 8

/-- The driver of a scenario, of either kind. -/
def scenarioDriver : Driver (Memory ⊕ Script) := Memory.driver.either Script.driver

/-- A station with a driver of either kind, and what is told of its loops. -/
structure Scenario where
  station : Station (Memory ⊕ Script)
  /-- The packets fed and not yet consumed since the loop started. -/
  owed : Nat
  /-- The events of the loops so far. -/
  loopLog : List Record

namespace Scenario

/-! ## Steps and answers -/

/-- A step. Holders are given by number. -/
inductive Step where
  /-- A step of the station. -/
  | station (step : Station.Step)
  /-- A step of the station that names no holder, done for one. -/
  | stationFor (holder : Nat) (step : Station.Step)
  | checkFilter (filter : String)
  | pool (holder : Nat)
  /-- Look at all idle storage. -/
  | scan (holder : Nat)
  /-- Take the log of the scripted driver. -/
  | calls
  | isOpen (holder : Nat)
  | config (holder : Nat)
  /-- Speak to the memory driver. -/
  | memory (holder : Nat) (request : Memory.Request)
  | driver (holder : Nat) (request : Driver.Request)
  /-- Count the packets in the queue and those the driver has yet to give. -/
  | queueLen (holder : Nat)

/-- What a step comes to. -/
inductive Answer where
  | station (a : Station.Answer)
  | memory (r : Memory.Reply)
  | driver (r : Driver.Reply)
  | pair (m n : Nat)
  | storages (l : List Storage)
  | calls (l : List Script.Logged)
  | config (c : Config)
  /-- All that was fed is consumed, and more may come. -/
  | queueEmpty
  /-- The loop has stopped now that its consumer has gone. -/
  | loopStopped
  /-- The loop waits for one more packet though its consumer has gone. -/
  | loopWaiting

/-- The answer of a step that was not done. -/
def Answer.skipped (why : Station.Skip) : Answer := .station (.skipped why)

/-! ## Looking at the state -/

/-- The session of the station. -/
def session (sc : Scenario) : Session (Memory ⊕ Script) := sc.station.session

/-- Use another state of the session. -/
def withSession (s : Session (Memory ⊕ Script)) (sc : Scenario) : Scenario :=
  { sc with station := sc.station.withSession s }

/-- Use another state of the driver. -/
def withDevice (device : Memory ⊕ Script) (sc : Scenario) : Scenario :=
  sc.withSession { sc.session with device }

/-- A receive loop was started and is not forgotten yet. -/
def hasLoop (sc : Scenario) : Bool := sc.station.loop.isSome

/-- The driver is the scripted one. -/
def isScripted (sc : Scenario) : Bool :=
  match sc.session.device with
  | .inl _ => false
  | .inr _ => true

/-- The packets the driver has yet to give. -/
def supply (sc : Scenario) : Nat :=
  match sc.session.device with
  | .inl m => m.pending.length
  | .inr s => s.recvs.length

/-- Do something that needs a holder. -/
def onHolder (h : Nat) (sc : Scenario) (act : Unit → Answer × Scenario) : Answer × Scenario :=
  if sc.station.holds h then act () else (.skipped .noHolder, sc)

/-- Do something that has to wait for the loop to end. -/
def onceIdle (sc : Scenario) (act : Unit → Answer × Scenario) : Answer × Scenario :=
  if sc.hasLoop then (.skipped .loopRunning, sc) else act ()

/-! ## Steps of the station -/

/-- Let the loop make all the moves it can. Three moves see a packet through, and a few more are
needed to end. -/
def settle (sc : Scenario) : Scenario :=
  { sc with station := sc.station.settle scenarioDriver (3 * sc.supply + 6) }

/-- Do a step of the station as it is. -/
def pass (st : Station.Step) (sc : Scenario) : Answer × Scenario :=
  let (a, station) := sc.station.step scenarioDriver st
  (.station a, { sc with station })

/-- Start a loop. It owes its consumer all that the driver has to give. -/
def start (st : Station.Step) (sc : Scenario) : Answer × Scenario :=
  let (a, sc') := sc.pass st
  (a, { sc' with owed := sc.supply })

/-- Consume the next packet of the loop, unless more may have to be fed first. -/
def consume (i : Slot) (sc : Scenario) : Answer × Scenario :=
  if sc.station.loop.any Loop.attended && !sc.isScripted && sc.owed == 0 && sc.session.isOpen then
    (.queueEmpty, sc)
  else
    match sc.pass (.consume i) with
    | (.station (.number n), sc) => (.station (.number n), { sc with owed := sc.owed - 1 })
    | r => r

/-- Drop the consumer's end of the queue, and see whether that stops the loop. -/
def dropQueue (sc : Scenario) : Answer × Scenario :=
  if sc.hasLoop && sc.isScripted then (.skipped .queueDropped, sc)
  else
    match sc.pass .dropQueue with
    | (.station .done, sc) =>
      let sc := sc.settle
      (if sc.hasLoop then .loopWaiting else .loopStopped, sc)
    | (a, sc) => (a, sc)

/-- Do a step of the station, unless it has to be skipped. -/
def stationStep (st : Station.Step) (sc : Scenario) : Answer × Scenario :=
  match st with
  | .recv _ h | .leave h => sc.onHolder h fun _ => sc.onceIdle fun _ => sc.pass st
  | .startLoop h _ | .startLoopOnRuntime h _ =>
    sc.onHolder h fun _ => sc.onceIdle fun _ => sc.start st
  | .close h => sc.onHolder h fun _ =>
    if sc.isScripted then sc.onceIdle fun _ => sc.pass st else sc.pass st
  | .consume i => sc.consume i
  | .dropQueue => sc.dropQueue
  | _ => sc.pass st

/-! ## All steps -/

/-- Speak to the memory driver. What it is fed is owed to the consumer of a loop. -/
def speak (r : Memory.Request) (m : Memory) (sc : Scenario) : Answer × Scenario :=
  let (a, m') := m.answer r
  (.memory a,
    { sc.withDevice (.inl m') with owed := sc.owed + (m'.pending.length - m.pending.length) })

/-- Make a call to the driver, past the session. -/
def ask (r : Driver.Request) (sc : Scenario) : Answer × Scenario :=
  match sc.session.ask scenarioDriver r with
  | none => (.skipped .wouldWait, sc)
  | some (a, s) => (.driver a, sc.withSession s)

/-- Do a step, the loop having made its moves. -/
def stepSettled (st : Step) (sc : Scenario) : Answer × Scenario :=
  match st with
  | .station st => sc.stationStep st
  | .stationFor h st => sc.onHolder h fun _ => sc.stationStep st
  | .checkFilter f =>
    match scenarioDriver.filterMistake? sc.session.device f with
    | none => (.station .done, sc)
    | some n => (.station (.refused (.invalidFilter n)), sc)
  | .pool h =>
    if sc.hasLoop then sc.onHolder h fun _ => (.skipped .loopRunning, sc)
    else (.pair sc.session.pool.idle.length sc.session.pool.allocated, sc)
  | .scan h =>
    if sc.hasLoop then sc.onHolder h fun _ => (.skipped .loopRunning, sc)
    else
      (.storages sc.session.pool.idle,
        sc.withSession { sc.session with pool := sc.session.pool.turn })
  | .calls =>
    match sc.session.device with
    | .inl _ => (.skipped .noScriptOrLoopRunning, sc)
    | .inr s =>
      if sc.hasLoop then (.skipped .noScriptOrLoopRunning, sc)
      else (.calls s.log, sc.withDevice (.inr { s with log := [] }))
  | .isOpen h => sc.onHolder h fun _ => (.station (.yesNo sc.session.isOpen), sc)
  | .config h => sc.onHolder h fun _ => (.config sc.session.config, sc)
  | .memory h r => sc.onHolder h fun _ =>
    match sc.session.device with
    | .inr _ => (.skipped .scripted, sc)
    | .inl m => sc.speak r m
  | .driver h r => sc.onHolder h fun _ =>
    if r.interferes then sc.onceIdle fun _ => sc.ask r else sc.ask r
  | .queueLen h => sc.onHolder h fun _ =>
    match sc.station.loop with
    | none => (.skipped .noLoop, sc)
    | some l =>
      if sc.isScripted then (.skipped .noLoop, sc) else (.pair l.queue.length sc.supply, sc)

/-- The slot of the packet a step works on, of the steps that leave it there. -/
def Step.keptSlot? : Step → Option Slot
  | .station (.packet i _) | .station (.checksums i _) | .station (.evalFilter i _ _)
  | .station (.sendKept i _) => some i
  | _ => none

/-- The step was not done. -/
def Answer.isSkipped : Answer → Bool
  | .station (.skipped _) => true
  | _ => false

/-- What comes of a step: its answer, the packet it worked on as it is afterwards, and the events
reported during it. A step that is skipped has not worked on a packet. -/
structure Outcome where
  answer : Answer
  packet : Option Packet
  log : List Record

/-- Take the events reported since they were last taken. Those of loops are kept apart. -/
def takeLog (sc : Scenario) : List Record × Scenario :=
  let log := sc.session.log
  (log.filter fun r => !r.ofLoop,
    { sc.withSession { sc.session with log := [] } with
      loopLog := sc.loopLog ++ log.filter Record.ofLoop })

/-- Do a step, once the loop has made its moves, and take the events that were reported. -/
def step (st : Step) (sc : Scenario) : Outcome × Scenario :=
  let (a, sc) := sc.settle.stepSettled st
  let (log, sc) := sc.takeLog
  (⟨a, if a.isSkipped then none else st.keptSlot?.bind sc.station.slot?, log⟩, sc)

/-! ## Beginning and ending -/

/-- The driver holds the session itself, because it may close it. -/
def heldByDriver (s : Session (Memory ⊕ Script)) : Bool :=
  match s.device with
  | .inl _ => false
  | .inr script => script.mayClose

/-- A scenario with an open session and one holder beside the driver. -/
def ofSession (s : Session (Memory ⊕ Script)) : Scenario :=
  ⟨.ofSession (if heldByDriver s then s.share else s), 0, []⟩

/-- Give up the packets that come out of the queue of the loop until it has ended, at most `fuel`
of them. -/
def drain : Nat → Scenario → Scenario
  | 0, sc => sc
  | fuel + 1, sc =>
    let sc := sc.settle
    match sc.station.loop.bind Loop.take? with
    | none => { sc with station := { sc.station with loop := none } }
    | some (p, l) =>
      drain fuel { sc with
        station := { sc.station with loop := some l, session := (sc.session.dropPacket p).2 } }

/-- End the loop: close the session, if the driver might make the loop wait, and empty the
queue. -/
def endLoop (sc : Scenario) : Scenario :=
  let sc := sc.settle
  match sc.station.loop with
  | none => sc
  | some l =>
    let sc := if sc.isScripted then sc else sc.withSession (sc.session.close scenarioDriver).2
    drain (l.queue.length + sc.supply + 2) sc

/-- Give up the packets in all slots, in order. -/
def clearSlots (sc : Scenario) : Scenario :=
  { sc with station := (List.range slotCount).foldl (fun st i => (st.clearSlot i).2) sc.station }

/-- Have all holders give the session up, in order, and last the driver if it holds it. -/
def leaveAll (sc : Scenario) : Scenario :=
  let leave (s : Session (Memory ⊕ Script)) (held : Bool) :=
    if held then s.leave scenarioDriver else s
  let s := sc.station.holders.foldl leave sc.session
  { sc with station :=
    { sc.station with session := leave s (heldByDriver s),
                      holders := sc.station.holders.map fun _ => false } }

/-- What is left at the end: the pool, the calls the scripted driver has logged, the events of
all loops, and those of the ending. -/
structure Ending where
  pool : Pool
  calls : Option (List Script.Logged)
  loopLog : List Record
  log : List Record

/-- End a scenario: the loop, then the packets, then the holders. -/
def finish (sc : Scenario) : Ending :=
  let (log, sc) := sc.endLoop.clearSlots.leaveAll.takeLog
  let calls :=
    match sc.session.device with
    | .inl _ => none
    | .inr script => some script.log
  ⟨sc.session.pool, calls, sc.loopLog, log⟩

end Scenario

end Intercept
