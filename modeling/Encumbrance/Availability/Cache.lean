import Encumbrance.Availability.Sources

/-!
# The actuals cache

The cache remembers the actual spend read for a scope, so that later reads of the scope see
the same figure even when more spending is posted. Figures never expire on their own within
a run; a scope is forgotten when it is invalidated, when the whole cache is cleared, or when
room is needed for another scope. A cache that is switched off (a time-to-live of zero)
remembers nothing and every read is live; so does a cache of capacity zero, though it
counts as switched on.

## Slots and upkeep

A read that finds no figure computes it and puts it in a **slot** at once, where later reads
find it. Whether the slot may stay is decided later, at **upkeep**, which works through notes
left by reads and writes in the order they were left:

* a read leaves a *hit* on the slot it found, or a *miss* on the scope it did not find;
* filling a slot leaves a *fill* naming the slot's tag and version, and invalidating a scope
  leaves a *drop*.

Upkeep runs when the count of entries is asked for, and before a note is left when 64 notes
of its kind are already waiting.

## Room and admission

The cache holds at most `capacity` **admitted** slots, kept from least to most recently
used. At upkeep, read notes come first: each counts one use of its scope, and a hit moves
an admitted slot to the most recent end. Write notes follow, in order:

* a fill whose slot has since been refilled or invalidated is passed over: a later note
  speaks for the slot;
* a fill of a slot already admitted only moves it to the most recent end;
* a fill while there is room admits the slot;
* otherwise the victim is sought from the least recently used end: the first admitted slot
  with no note still waiting. The new slot is admitted in the victim's place only when its
  scope has been used strictly more often, and is thrown away otherwise;
* a drop unadmits its slot.

Uses are counted only once the cache has been at least half full at the end of an upkeep.
Counts stop at 15, and after ten times `max capacity 128` counted uses all counts are halved.

Clearing the cache marks every slot stale: a stale slot reads as missing, a read refills it
in place, and upkeep throws away the stale slots that are still admitted.
-/

namespace Encumbrance

/-- A remembered figure. The `tag` names the slot's admission record, which a refill keeps;
    `version` counts the refills; a `stale` figure was remembered before the cache was last
    cleared. -/
structure CacheSlot where
  scope : BudgetScope
  value : Decimal
  tag : Nat
  version : Nat
  stale : Bool
  deriving Repr

/-- What a read leaves for upkeep. -/
inductive ReadNote where
  | hit (scope : BudgetScope) (tag : Nat)
  | miss (scope : BudgetScope)
  deriving Repr

/-- What a write leaves for upkeep. -/
inductive WriteNote where
  | fill (scope : BudgetScope) (tag version : Nat)
  | drop (tag : Nat)
  deriving Repr

/-- The tag of the slot a write note is about. -/
def WriteNote.tag : WriteNote → Nat
  | .fill _ tag _ => tag
  | .drop tag => tag

/-- Actual spend remembered per scope. -/
structure ActualsCache where
  enabled : Bool := false
  capacity : Nat := 10000
  slots : List CacheSlot := []
  /-- Admitted slots as scope and tag, least recently used first. -/
  admitted : List (BudgetScope × Nat) := []
  reads : List ReadNote := []
  writes : List WriteNote := []
  /-- Uses per scope, once counting has started. -/
  uses : Option (List (BudgetScope × Nat)) := none
  /-- Uses counted since the counts were last halved. -/
  counted : Nat := 0
  nextTag : Nat := 0
  deriving Repr

namespace ActualsCache

/-- Notes of one kind that may wait before upkeep runs. -/
def notesBeforeUpkeep : Nat := 64

/-- The highest use count. -/
def maxUses : Nat := 15

/-- Victims passed over in a row before an admission gives up. -/
def maxSkips : Nat := 5

/-- A cache holding `capacity` scopes, on when the time-to-live is above zero. -/
def create (ttlSecs capacity : Nat) : ActualsCache := { enabled := 0 < ttlSecs, capacity }

/-- A cache of the usual capacity, ten thousand scopes. -/
def withTtl (ttlSecs : Nat) : ActualsCache := create ttlSecs 10000

/-- Whether reads go through the cache at all: it is on and has room for a scope. -/
def remembers (c : ActualsCache) : Bool := c.enabled && 0 < c.capacity

/-! ## Section 1: Use counts -/

/-- How many counted uses halve the counts. -/
def halvingPoint (c : ActualsCache) : Nat := min (10 * min (max c.capacity 128) (Nat.pow 2 30)) (Nat.pow 2 31 - 1)

/-- How often a scope has been used. -/
def usesOf (c : ActualsCache) (s : BudgetScope) : Nat :=
  match c.uses with
  | some us => ((us.find? (·.1 = s)).map (·.2)).getD 0
  | none => 0

/-- Halves every count; the counted uses drop by half and by one per odd count. -/
def halve (us : List (BudgetScope × Nat)) (counted : Nat) : List (BudgetScope × Nat) × Nat :=
  (us.map fun (s, n) => (s, n / 2), counted / 2 - (us.filter fun u => u.2 % 2 == 1).length)

/-- Counts one use of a scope, once counting has started. -/
def countUse (c : ActualsCache) (s : BudgetScope) : ActualsCache :=
  match c.uses with
  | none => c
  | some us =>
    let n := c.usesOf s
    if maxUses ≤ n then c
    else
      let us := if us.any (·.1 = s) then us.map fun u => if u.1 = s then (s, n + 1) else u
        else us ++ [(s, 1)]
      let counted := c.counted + 1
      if c.halvingPoint ≤ counted then
        let (us, counted) := halve us counted
        { c with uses := some us, counted }
      else { c with uses := some us, counted }

/-! ## Section 2: Upkeep -/

/-- Whether a slot with this tag is admitted. -/
def isAdmitted (c : ActualsCache) (tag : Nat) : Bool := c.admitted.any (·.2 == tag)

/-- Moves the admitted slot with this tag to the most recent end. -/
def touch (c : ActualsCache) (tag : Nat) : ActualsCache :=
  { c with admitted := c.admitted.filter (·.2 != tag) ++ c.admitted.filter (·.2 == tag) }

/-- Unadmits the slot with this tag. -/
def unseat (c : ActualsCache) (tag : Nat) : ActualsCache :=
  { c with admitted := c.admitted.filter (·.2 != tag) }

/-- Throws away the slot of a scope when it still holds this tag and version. -/
def discard (c : ActualsCache) (s : BudgetScope) (tag version : Nat) : ActualsCache :=
  { c with slots := c.slots.filter fun x => !(x.scope = s && x.tag == tag && x.version == version) }

/-- The victim of an admission: from the least recently used end, the first admitted slot
    that is still held and has no write still waiting (`busy` lists the tags that do). A
    slot passed over is moved to the most recent end and the search goes on at the new
    least recently used end, so it keeps cycling through the admitted slots; it gives up
    after more than `maxSkips` such moves in a row, or after one move when that slot is the
    only one. -/
def findVictim (busy : List Nat) (c : ActualsCache) : ActualsCache × Option (BudgetScope × Nat) :=
  let rec go (fuel skips : Nat) (c : ActualsCache) : ActualsCache × Option (BudgetScope × Nat) :=
    match fuel, c.admitted with
    | 0, _ => (c, none)
    | _, [] => (c, none)
    | fuel + 1, v :: rest =>
      if !busy.contains v.2 && c.slots.any (fun x => x.scope = v.1 && x.tag == v.2) then
        (c, some v)
      else if maxSkips < skips + 1 || rest.isEmpty then (c.touch v.2, none)
      else go fuel (skips + 1) (c.touch v.2)
  go (maxSkips + 1) 0 c

/-- Evicts a victim: its slot goes and is unadmitted. -/
def evict (c : ActualsCache) (v : BudgetScope × Nat) : ActualsCache :=
  { c with slots := c.slots.filter fun x => !(x.scope = v.1 && x.tag == v.2) }.unseat v.2

/-- Admits a slot at the most recent end. -/
def seat (c : ActualsCache) (s : BudgetScope) (tag : Nat) : ActualsCache :=
  { c with admitted := c.admitted ++ [(s, tag)] }

/-- Whether the scope's slot is still the one a fill note was left for. -/
def isCurrent (c : ActualsCache) (s : BudgetScope) (tag version : Nat) : Bool :=
  c.slots.any fun x => x.scope = s && x.tag == tag && x.version == version

/-- Works through one read note. -/
def applyRead (c : ActualsCache) : ReadNote → ActualsCache
  | .hit s tag => (c.countUse s).touch tag
  | .miss s => c.countUse s

/-- Works through one write note; `busy` lists the tags with writes still waiting. -/
def applyWrite (busy : List Nat) (c : ActualsCache) : WriteNote → ActualsCache
  | .fill s tag version =>
    if !c.isCurrent s tag version then c
    else if c.isAdmitted tag then c.touch tag
    else if c.admitted.length + 1 ≤ c.capacity then c.seat s tag
    else if c.capacity < 1 then c.discard s tag version
    else
      match c.findVictim busy with
      | (c, some v) =>
        if c.usesOf v.1 < c.usesOf s then (c.evict v).seat s tag else c.discard s tag version
      | (c, none) => c.discard s tag version
  | .drop tag => c.unseat tag

/-- Works through write notes in order. Each is worked through while the notes after it, and
    the tags in `inFlight`, still count as waiting. -/
def applyWrites (inFlight : List Nat) : ActualsCache → List WriteNote → ActualsCache
  | c, [] => c
  | c, n :: rest => applyWrites inFlight (c.applyWrite (rest.map WriteNote.tag ++ inFlight) n) rest

/-- Starts counting uses once the cache is at least half full. -/
def startCounting (c : ActualsCache) : ActualsCache :=
  if c.uses.isNone && 0 < c.capacity && c.capacity / 2 ≤ c.admitted.length then
    { c with uses := some [] }
  else c

/-- Throws away the admitted slots that are stale. -/
def dropStale (c : ActualsCache) : ActualsCache :=
  let stale := c.slots.filter (·.stale)
  let isStale (a : BudgetScope × Nat) : Bool := stale.any fun x => x.scope = a.1 && x.tag == a.2
  let gone := c.admitted.filter isStale
  { c with admitted := c.admitted.filter (!isStale ·)
           slots := c.slots.filter fun x => !(gone.any fun a => x.scope = a.1 && x.tag == a.2) }

/-- Upkeep: read notes, then write notes, then counting, then stale slots. The tags in
    `inFlight` belong to slots changed just now whose notes are not left yet. -/
def upkeepWith (inFlight : List Nat) (c : ActualsCache) : ActualsCache :=
  let c := c.reads.foldl applyRead { c with reads := [] }
  let c := applyWrites inFlight { c with writes := [] } c.writes
  c.startCounting.dropStale

/-- Upkeep with no change in flight. -/
def upkeep (c : ActualsCache) : ActualsCache := c.upkeepWith []

/-- Leaves a read note, running upkeep first when enough are waiting. -/
def noteRead (c : ActualsCache) (n : ReadNote) : ActualsCache :=
  let c := if notesBeforeUpkeep ≤ c.reads.length then c.upkeep else c
  { c with reads := c.reads ++ [n] }

/-- Leaves a write note for a slot changed just now, running upkeep first when enough are
    waiting; that upkeep already counts the slot as having a write waiting. -/
def noteWrite (c : ActualsCache) (n : WriteNote) : ActualsCache :=
  let c := if notesBeforeUpkeep ≤ c.writes.length then c.upkeepWith [n.tag] else c
  { c with writes := c.writes ++ [n] }

/-! ## Section 3: Reading and forgetting -/

/-- The figure remembered for a scope, if it is not stale. -/
def lookup (c : ActualsCache) (s : BudgetScope) : Option CacheSlot :=
  c.slots.find? fun x => x.scope = s && !x.stale

/-- A read that found its slot. -/
def hit (c : ActualsCache) (x : CacheSlot) : ActualsCache := c.noteRead (.hit x.scope x.tag)

/-- A read that found no figure for the scope. -/
def miss (c : ActualsCache) (s : BudgetScope) : ActualsCache := c.noteRead (.miss s)

/-- Puts a freshly read figure in the scope's slot: a stale slot is refilled in place,
    otherwise a new slot is made. -/
def fill (c : ActualsCache) (s : BudgetScope) (v : Decimal) : ActualsCache :=
  match c.slots.find? (·.scope = s) with
  | some old =>
    let x := { old with value := v, version := old.version + 1, stale := false }
    { c with slots := c.slots.map fun (y : CacheSlot) => if y.scope = s then x else y }.noteWrite
      (.fill s x.tag x.version)
  | none =>
    let x : CacheSlot := { scope := s, value := v, tag := c.nextTag, version := 0, stale := false }
    { c with slots := c.slots ++ [x], nextTag := c.nextTag + 1 }.noteWrite (.fill s x.tag 0)

/-- Forgets one scope. -/
def invalidate (c : ActualsCache) (s : BudgetScope) : ActualsCache :=
  match c.slots.find? (·.scope = s) with
  | some x => { c with slots := c.slots.filter (·.scope ≠ s) }.noteWrite (.drop x.tag)
  | none => c

/-- Forgets everything remembered so far. -/
def invalidateAll (c : ActualsCache) : ActualsCache :=
  { c with slots := c.slots.map fun x => { x with stale := true } }

/-- How many scopes are admitted, after upkeep. -/
def entryCount (c : ActualsCache) : Nat × ActualsCache :=
  let c := c.upkeep
  (c.admitted.length, c)

end ActualsCache

end Encumbrance
