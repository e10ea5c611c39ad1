import Encumbrance.Control.Controller

/-!
# Ordered dispatch

Events are routed to worker shards by their source document, so the events of one document
are handled one after another in the order they were sent. The shard of a document is its
hash modulo the number of shards: SipHash-1-3 with both keys zero, over the document type's
UTF-8 bytes, the byte `0xFF`, the name's bytes and `0xFF` again.

With each event awaited before the next is sent, dispatch is handling in order. A handler
that aborts on an arithmetic overflow fails only its own event, as a dispatch error; the
changes it made before aborting stay.
-/

namespace Encumbrance

namespace SipHash

/-- Rotates a word left. -/
def rotl (x : UInt64) (b : UInt64) : UInt64 := (x <<< b) ||| (x >>> (64 - b))

/-- The four words of the hash state. -/
structure State where
  v0 : UInt64
  v1 : UInt64
  v2 : UInt64
  v3 : UInt64

/-- One SipRound. -/
def round (s : State) : State :=
  let v0 := s.v0 + s.v1
  let v1 := rotl s.v1 13 ^^^ v0
  let v0 := rotl v0 32
  let v2 := s.v2 + s.v3
  let v3 := rotl s.v3 16 ^^^ v2
  let v0 := v0 + v3
  let v3 := rotl v3 21 ^^^ v0
  let v2 := v2 + v1
  let v1 := rotl v1 17 ^^^ v2
  let v2 := rotl v2 32
  ⟨v0, v1, v2, v3⟩

/-- Absorbs one message word with one compression round. -/
def absorb (s : State) (m : UInt64) : State :=
  let s := round { s with v3 := s.v3 ^^^ m }
  { s with v0 := s.v0 ^^^ m }

/-- A little-endian word from up to eight bytes. -/
def word (bs : List UInt8) : UInt64 :=
  bs.foldr (fun b acc => (acc <<< 8) ||| b.toUInt64) 0

/-- Absorbs whole words while eight bytes remain; returns the state and the tail. -/
def absorbAll (s : State) : List UInt8 → Nat → State × List UInt8
  | bs, 0 => (s, bs)
  | bs, fuel + 1 =>
    if bs.length < 8 then (s, bs) else absorbAll (absorb s (word (bs.take 8))) (bs.drop 8) fuel

/-- SipHash-1-3 of a byte string under keys `k0` and `k1`. -/
def hash13 (k0 k1 : UInt64) (bytes : List UInt8) : UInt64 :=
  let s : State := ⟨k0 ^^^ 0x736f6d6570736575, k1 ^^^ 0x646f72616e646f6d,
    k0 ^^^ 0x6c7967656e657261, k1 ^^^ 0x7465646279746573⟩
  let (s, tail) := absorbAll s bytes (bytes.length / 8 + 1)
  let last := ((bytes.length % 256).toUInt64 <<< 56) ||| word tail
  let s := absorb s last
  let s := round (round (round { s with v2 := s.v2 ^^^ 0xff }))
  s.v0 ^^^ s.v1 ^^^ s.v2 ^^^ s.v3

end SipHash

/-- Workers that handle events in order per document. -/
structure Dispatcher where
  shards : Nat
  deriving Repr

namespace Dispatcher

/-- A dispatcher with the given number of workers, at least one. -/
def spawn (workers : Nat) : Dispatcher := ⟨max 1 workers⟩

/-- The bytes a document reference is hashed as. -/
def hashBytes (d : DocumentRef) : List UInt8 :=
  d.doctype.toUTF8.toList ++ [0xFF] ++ d.name.toUTF8.toList ++ [0xFF]

/-- The shard that handles a document's events. -/
def shardFor (w : Dispatcher) (d : DocumentRef) : Nat :=
  (SipHash.hash13 0 0 (hashBytes d)).toNat % w.shards

/-- Handles an event on its shard as task number `task`. An overflow in the handler is
    reported as a failure of that task. -/
def dispatch (task : Nat) (ev : LifecycleEvent) : EngineM Outcome :=
  tryCatch (Engine.handle ev) fun e =>
    match e with
    | .overflow a =>
      throw (.dispatch ("handler for " ++ ev.name ++ " failed: task " ++ toString task ++
        " panicked with message \"" ++ a.message ++ "\""))
    | e => throw e

/-! ## Workers at work

Every event is sent to its document's shard, behind the events sent before it, and each shard's
worker takes its jobs one at a time, in the order they came, handling each as one call on the
shared engine. How the workers' turns interleave is up to the scheduler.
-/

/-- A job waiting on a shard: the event and its number in submission order. -/
structure Job where
  task : Nat
  event : LifecycleEvent

/-- The jobs of some events, numbered in submission order. -/
def jobs (events : List LifecycleEvent) : List Job :=
  events.zipIdx.map fun (ev, i) => ⟨i, ev⟩

end Dispatcher

/-- The dispatcher at work on a shared engine: the jobs waiting on each shard, first the one
    sent first, and the replies given so far, numbered by task. -/
structure Pool where
  engine : Engine
  queues : Nat → List Dispatcher.Job
  replies : List (Nat × Except BudgetError Outcome)

namespace Dispatcher

/-- Sends every event to its document's shard, behind the events sent before it. -/
def submitAll (w : Dispatcher) (events : List LifecycleEvent) (e : Engine) : Pool :=
  { engine := e,
    queues := fun j => (jobs events).filter fun job => w.shardFor job.event.document.docRef == j,
    replies := [] }

end Dispatcher

namespace Pool

/-- The worker of shard `j` takes the first job waiting there, if any, and handles it as one
    call on the shared engine. -/
def work (p : Pool) (j : Nat) : Pool :=
  match p.queues j with
  | [] => p
  | job :: rest =>
    let (r, e) := ((Dispatcher.dispatch job.task job.event).run).run p.engine
    { engine := e, queues := fun i => if i = j then rest else p.queues i,
      replies := p.replies ++ [(job.task, r)] }

/-- The workers take turns in the order of `schedule`. -/
def run (p : Pool) (schedule : List Nat) : Pool := schedule.foldl work p

end Pool

namespace Dispatcher

/-- Handling every event in submission order, as one worker does. -/
def serial (events : List LifecycleEvent) (e : Engine) : Pool :=
  ((spawn 1).submitAll events e).run (List.replicate events.length 0)

end Dispatcher

end Encumbrance
