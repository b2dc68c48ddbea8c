import Gokvm.Lib.FinMap
import Gokvm.Lib.Tally
import Gokvm.Gateway.Memory

/-! # The manager of virtual machines

Calls of the manager and the goroutines that watch the children run concurrently. Each is a
program with a place in it; a step is one critical section, one exchange with a channel or an
atomic, or one effect outside, with what only the holder of a machine's lock reads and writes
until the next. An event names who takes the next step and what its environment answers, so a list
of events is an interleaving with every cancellation, timeout and failure.

The place of a call with a machine's lock is kept with the lock, so a machine is never in two
critical sections. Machines, children and calls are numbered in the order of their creation;
random identities are never repeated.
-/

namespace Gokvm.Gateway

open Lib

inductive VmState where
  | creating
  | stopped
  | starting
  | running
  | deleted
deriving DecidableEq

/-- The part of `VM` that the lifecycle reads. -/
structure VmRecord where
  id : String
  name : String
  owner : String
  state : VmState
  error : String := ""

/-- `managedVMView`: what readers see without a lock. -/
structure ManagedView where
  record : VmRecord
  run : Option Nat

inductive Op where
  | start
  | stop
  | delete
  | rdp
deriving DecidableEq

inductive Outcome where
  | ok
  | endpoint (run : Nat)
  | conflict
  | notFound
  | cancelled
  | memory (reason : MemoryRefusal)
  | failure

/-- Where a call is that has the lock of a machine. -/
inductive Place where
  | check (op : Op)
  -- Start
  | reserve
  | spawn
  | unreserve
  | record (run : Nat)
  | publish (run : Nat)
  | await (run : Nat)
  | save (run : Nat)
  | failed (run : Nat)
  -- Stop
  | signal (run : Nat)
  | shutdown (run : Nat)
  -- Delete
  | remove
  | forget
  -- CreateWithProgress
  | reserveVM
  | prepare
  | prepared
  | saveNew
  | abandon
  | unlock (outcome : Outcome)

/-- Who has a machine's `mutation` slot. -/
inductive Holder where
  | call (number : Nat) (place : Place)
  | watcher (run : Nat)

structure ManagedVM where
  mutation : Option Holder
  record : VmRecord
  run : Option Nat
  view : ManagedView
  /-- The call that creates it, for the proofs only; none for a saved machine. -/
  creator : Option Nat

namespace ManagedVM

def new (record : VmRecord) (creator : Option Nat) : ManagedVM :=
  { mutation := none, record, run := none, view := { record, run := none }, creator }

def blank : ManagedVM := .new { id := "", name := "", owner := "", state := .deleted } none

/-- The lock is held by a call at a place. -/
def hold (v : ManagedVM) (call : Nat) (place : Place) : ManagedVM := { v with mutation := some (.call call place) }

def publish (v : ManagedVM) : ManagedVM := { v with view := { record := v.record, run := v.run } }

def unlock (v : ManagedVM) : ManagedVM := { v.publish with mutation := none }

def setState (v : ManagedVM) (state : VmState) : ManagedVM := { v with record := { v.record with state } }

def setError (v : ManagedVM) (error : String) : ManagedVM := { v with record := { v.record with error } }

def setRun (v : ManagedVM) (run : Option Nat) : ManagedVM := { v with run }

end ManagedVM

/-- How far a child and its watcher are. -/
inductive ChildPhase where
  /-- The child was started, its watcher was not. -/
  | unwatched
  /-- The watcher is in `cmd.Wait`. -/
  | alive
  /-- `cmd.Wait` has returned: the child is reaped. -/
  | waited
  /-- The child is no longer counted. -/
  | recorded
  /-- `done` is closed; the watcher waits for the machine's lock. -/
  | published
  /-- The watcher has the lock. -/
  | settling
  | ended
deriving DecidableEq

structure ManagedProcess where
  vm : Nat
  phase : ChildPhase
  /-- `cmd.Wait` gave an error. -/
  failed : Bool

namespace ManagedProcess

/-- The child is started and not yet reaped. -/
def unreaped (run : ManagedProcess) : Bool := run.phase = .unwatched || run.phase = .alive

def counted (run : ManagedProcess) : Bool := run.unreaped || run.phase = .waited

/-- The `done` channel is closed. -/
def done (run : ManagedProcess) : Bool :=
  run.phase = .published || run.phase = .settling || run.phase = .ended

end ManagedProcess

inductive ManagerCall where
  | idle
  | enter (op : Op) (owner id : String)
  | find (op : Op) (owner id : String)
  | lock (op : Op) (vm : Nat)
  | inside (vm : Nat)
  | load (owner : String) (vm : Nat)
  | resolve (owner : String) (vm : Nat) (view : ManagedView)
  | create (owner name : String)
  | close
  | finished (outcome : Outcome)

structure Manager where
  vms : FinMap String Nat
  objects : Nat → ManagedVM
  objectCount : Nat
  runs : Nat → ManagedProcess
  runCount : Nat
  calls : Nat → ManagerCall
  callCount : Nat
  /-- The started children that are counted, by number. -/
  processes : List Nat
  active : Int
  memoryBudget : UInt64
  closed : Bool

structure Reply where
  /-- The context is cancelled, or a timeout has passed. -/
  cancel : Bool
  /-- The effect of the step fails. -/
  fail : Bool
  memory : MemoryReport
  /-- The random text, in lower case, for the identity of a new machine. -/
  text : String

namespace Manager

variable (s : Manager)

def goto (call : Nat) (place : ManagerCall) : Manager := { s with calls := Function.update s.calls call place }

def finish (call : Nat) (outcome : Outcome) : Manager := s.goto call (.finished outcome)

def setVM (vm : Nat) (object : ManagedVM) : Manager :=
  { s with objects := Function.update s.objects vm object }

def setRun (run : Nat) (process : ManagedProcess) : Manager :=
  { s with runs := Function.update s.runs run process }

def setPhase (run : Nat) (phase : ChildPhase) : Manager := s.setRun run { s.runs run with phase }

/-- The holder of a machine's lock moves on, and nothing else happens. -/
def move (call vm : Nat) (place : Place) : Manager := s.setVM vm ((s.objects vm).hold call place)

def validID (id : String) : Bool :=
  id.length = 26 && id.toList.all fun c => ('a' ≤ c && c ≤ 'z') || ('2' ≤ c && c ≤ '7')

/-- `lookup`: the machine of an owner. -/
def lookup (owner id : String) : Except Outcome Nat :=
  if !validID id then .error .notFound
  else match s.vms.lookup id with
    | none => .error .notFound
    | some vm =>
      if (s.objects vm).view.record.owner ≠ owner then .error .notFound
      else if s.closed then .error .conflict
      else .ok vm

/-- The first checks of `Start`, `Stop` and `Delete` under the machine's lock. -/
def check (op : Op) (object : ManagedVM) (cancel : Bool) : Place :=
  match op with
  | .stop => match object.run with
    | none => .unlock .ok
    | some run => if cancel then .unlock .cancelled else .signal run
  -- RDP takes no lock
  | .rdp => .unlock .conflict
  | _ =>
    if cancel then .unlock .cancelled
    else if object.run ≠ none ∨ object.record.state ≠ .stopped then .unlock .conflict
    else if op = .start then .reserve else .remove

/-- The critical section of `Start`: a slot and the memory for one more child. -/
def reserve (limits : ManagerLimits) (call vm : Nat) (report : MemoryReport) : Manager :=
  if s.closed ∨ s.active ≥ limits.maxRunning then s.move call vm (.unlock .conflict)
  else
    let (memoryBudget, refusal) := limits.checkMemory s.active s.memoryBudget s.processes report
    match refusal with
    | some reason => { s with memoryBudget }.move call vm (.unlock (.memory reason))
    | none => { s with memoryBudget, active := s.active + 1 }.move call vm .spawn

/-- `startProcess`. -/
def spawn (call vm : Nat) : Manager :=
  ({ s with runCount := s.runCount + 1 }.setRun s.runCount { vm, phase := .unwatched, failed := false }).move
    call vm (.record s.runCount)

/-- The child becomes the machine's, and its watcher starts. -/
def publish (call vm run : Nat) : Manager :=
  let object := (((s.objects vm).setState .starting).setError "").setRun (some run)
  (s.setVM vm (object.publish.hold call (.await run))).setPhase run .alive

/-- The end of `failedStart`: a child that is gone leaves the machine stopped. -/
def settleFailed (call vm run : Nat) : Manager :=
  let object := s.objects vm
  let object := if (s.runs run).done then (object.setRun none).setState .stopped else object
  s.setVM vm ((object.setError "Desktop startup failed.").hold call (.unlock .failure))

/-- The end of `Stop` after the child is gone. -/
def settleStopped (call vm run : Nat) (saveFails : Bool) : Manager :=
  let failed := (s.runs run).failed
  let object := ((s.objects vm).setRun none).setState .stopped
  let object := object.setError (if failed then "Desktop stopped unexpectedly." else "")
  s.setVM vm (object.hold call (.unlock (if failed ∨ saveFails then .failure else .ok)))

/-- `reserveVM`: the quota and the names of the owner, creations included. -/
def reserveVM (limits : ManagerLimits) (call vm : Nat) : Manager :=
  let record := (s.objects vm).record
  let owned := s.vms.entries.filter fun e => (s.objects e.2).view.record.owner = record.owner
  if s.closed then s.move call vm (.unlock .conflict)
  else if owned.any fun e => (s.objects e.2).view.record.name = record.name then
    s.move call vm (.unlock .conflict)
  else if owned.length ≥ limits.maxVMsPerUser then s.move call vm (.unlock .conflict)
  else if (s.vms.lookup record.id).isSome then s.move call vm (.unlock .conflict)
  else { s with vms := s.vms.insert record.id vm }.move call vm .prepare

/-- A step of a call that has the lock of a machine; none when it has to wait. -/
def stepInside (limits : ManagerLimits) (call vm : Nat) (answer : Reply) : Place → Option Manager
  | .check op => some (s.move call vm (check op (s.objects vm) answer.cancel))
  | .reserve => some (s.reserve limits call vm answer.memory)
  | .spawn => some (if answer.fail then s.move call vm .unreserve else s.spawn call vm)
  | .unreserve => some ({ s with active := s.active - 1 }.move call vm (.unlock .failure))
  | .record run => some ({ s with processes := run :: s.processes }.move call vm (.publish run))
  | .publish run => some (s.publish call vm run)
  | .await run =>
    if answer.cancel ∨ (s.runs run).done then some (s.move call vm (.failed run))
    else some (s.setVM vm (((s.objects vm).setState .running).hold call (.save run)))
  | .save run => some (s.move call vm (if answer.fail then .failed run else .unlock .ok))
  | .failed run => some (s.settleFailed call vm run)
  | .signal run => some (s.move call vm (if answer.fail then .unlock .failure else .shutdown run))
  | .shutdown run =>
    if answer.cancel then some (s.move call vm (.unlock .cancelled))
    else if (s.runs run).done then some (s.settleStopped call vm run answer.fail)
    else none
  | .remove => some (s.move call vm (if answer.fail then .unlock .failure else .forget))
  | .forget =>
    let object := s.objects vm
    some ({ s with vms := s.vms.erase object.record.id }.setVM vm
      ((object.setState .deleted).hold call (.unlock .ok)))
  | .reserveVM => some (s.reserveVM limits call vm)
  | .prepare => some (s.move call vm (if answer.fail then .abandon else .prepared))
  | .prepared =>
    if answer.cancel then some (s.move call vm .abandon)
    else some (s.setVM vm (((s.objects vm).setState .stopped).hold call .saveNew))
  | .saveNew => some (s.move call vm (if answer.fail then .abandon else .unlock .ok))
  | .abandon =>
    some ({ s with vms := s.vms.erase (s.objects vm).record.id }.move call vm (.unlock .failure))
  | .unlock outcome => some ((s.setVM vm (s.objects vm).unlock).finish call outcome)

/-- A new machine, with the lock of the call that creates it. -/
def newVM (call : Nat) (owner name id : String) : Manager :=
  let object := ManagedVM.new { id, name, owner, state := .creating } (some call)
  ({ s with objectCount := s.objectCount + 1 }.setVM s.objectCount (object.hold call .reserveVM)).goto call
    (.inside s.objectCount)

def fresh (id : String) : Bool := (List.range s.objectCount).all fun vm => (s.objects vm).record.id ≠ id

/-- `RDP` after it has loaded a view. -/
def resolve (view : ManagedView) (cancel : Bool) : Outcome :=
  if cancel then .cancelled
  else match view.run with
    | none => .conflict
    | some run => if view.record.state ≠ .running ∨ (s.runs run).done then .conflict else .endpoint run

/-- A step of a call; none when it has to wait. -/
def stepCall (limits : ManagerLimits) (call : Nat) (answer : Reply) : Option Manager :=
  match s.calls call with
  | .idle => none
  | .finished _ => none
  | .enter op owner id =>
    if answer.cancel then some (s.finish call .cancelled)
    else if s.closed then some (s.finish call .conflict)
    else some (s.goto call (.find op owner id))
  | .find op owner id => match s.lookup owner id with
    | .error outcome => some (s.finish call outcome)
    | .ok vm => some (s.goto call (if op = .rdp then .load owner vm else .lock op vm))
  | .lock op vm =>
    if answer.cancel then some (s.finish call .cancelled)
    else if (s.objects vm).mutation.isNone then
      some ((s.move call vm (.check op)).goto call (.inside vm))
    else none
  | .inside vm => match (s.objects vm).mutation with
    | some (.call number place) => if number = call then s.stepInside limits call vm answer place else none
    | _ => none
  | .load owner vm => some (s.goto call (.resolve owner vm (s.objects vm).view))
  | .resolve _ _ view => some (s.finish call (s.resolve view answer.cancel))
  | .create owner name =>
    -- the context, the checks of the request and the choice of the image
    if answer.cancel ∨ answer.fail then some (s.finish call .failure)
    else if s.closed then some (s.finish call .conflict)
    else if s.fresh answer.text then some (s.newVM call owner name answer.text)
    else none
  | .close => some ({ s with closed := true }.finish call .ok)

def exited (object : ManagedVM) (failed saveFails : Bool) : ManagedVM :=
  let object := (object.setRun none).setState .stopped
  let object :=
    if failed ∧ object.record.error = "" then object.setError "Desktop stopped unexpectedly." else object
  if saveFails then object.setError "Could not save desktop state." else object

/-- The end of `watch`: the machine of the child is stopped, unless it has a newer child. -/
def settleExited (run : Nat) (saveFails : Bool) : Manager :=
  let vm := (s.runs run).vm
  let object := s.objects vm
  let object := if object.run = some run then exited object (s.runs run).failed saveFails else object
  (s.setVM vm object.unlock).setPhase run .ended

/-- A step of the watcher of a child; the child itself ends in the first one. -/
def stepWatcher (run : Nat) (answer : Reply) : Option Manager :=
  match (s.runs run).phase with
  | .unwatched => none
  | .alive => some (s.setRun run { s.runs run with phase := .waited, failed := answer.fail })
  | .waited =>
    some ({ s with processes := s.processes.erase run, active := s.active - 1 }.setPhase run .recorded)
  | .recorded => some (s.setPhase run .published)
  | .published =>
    let vm := (s.runs run).vm
    if (s.objects vm).mutation.isNone then
      some ((s.setVM vm { s.objects vm with mutation := some (.watcher run) }).setPhase run .settling)
    else none
  | .settling => some (s.settleExited run answer.fail)
  | .ended => none

inductive Request where
  | op (op : Op) (owner id : String)
  | create (owner name : String)
  | close

def Request.entry : Request → ManagerCall
  | op kind owner id => .enter kind owner id
  | create owner name => .create owner name
  | close => .close

inductive Event where
  | begin (request : Request)
  | call (number : Nat) (answer : Reply)
  | watcher (run : Nat) (answer : Reply)

def step (limits : ManagerLimits) : Event → Option Manager
  | .begin request => some ({ s with callCount := s.callCount + 1 }.goto s.callCount request.entry)
  | .call number answer => s.stepCall limits number answer
  | .watcher run answer => s.stepWatcher run answer

/-- An event whose step has to wait changes nothing. -/
def act (limits : ManagerLimits) (s : Manager) (event : Event) : Manager := (s.step limits event).getD s

def run (limits : ManagerLimits) (s : Manager) (events : List Event) : Manager := events.foldl (act limits) s

/-- A machine that was saved: the directory it is in names it. -/
structure SavedVM where
  id : String
  name : String
  owner : String

def SavedVM.object (saved : SavedVM) : ManagedVM :=
  .new { id := saved.id, name := saved.name, owner := saved.owner, state := .stopped } none

def empty : Manager where
  vms := ∅
  objects := fun _ => .blank
  objectCount := 0
  runs := fun _ => { vm := 0, phase := .ended, failed := false }
  runCount := 0
  calls := fun _ => .idle
  callCount := 0
  processes := []
  active := 0
  memoryBudget := 0
  closed := false

def add (saved : SavedVM) : Manager :=
  { s.setVM s.objectCount saved.object with
      objectCount := s.objectCount + 1, vms := s.vms.insert saved.id s.objectCount }

/-- `load`: every saved machine is stopped. -/
def load (saved : List SavedVM) : Manager := saved.foldl add empty

end Manager

end Gokvm.Gateway
