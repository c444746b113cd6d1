import Rheostream.Foundation.Machine
import Rheostream.Foundation.Table

/-!
# The engine pool

`storage/pools.py`: one engine for each database name, least recently handed out first. Idle
engines are retired after a while and over the cap, busy ones are left alone. An engine counts
as busy while it is pinned or a connection is out. `dispose` runs after the lock is released, so
a retired engine is disposed in a step of its own.
-/

namespace Rheostream.EnginePool

/-- The identity of an engine. -/
abbrev Engine := ℕ

/-- What a pool is built with. Times count in the unit of the clock. -/
structure PoolConfig where
  cacheSize : ℕ
  poolSize : ℕ
  idleCloseSeconds : ℤ
  cacheSize_pos : 0 < cacheSize
  poolSize_pos : 0 < poolSize
  idleCloseSeconds_pos : 0 < idleCloseSeconds

/-- The pool, the connections that are out, and what has become of every engine it made. -/
structure PoolState where
  /-- `_engines`, least recent first. -/
  engines : List (String × Engine)
  lastUsed : Table String ℤ
  pins : Table Engine ℕ
  checkedOut : Table Engine ℕ
  /-- The database of every engine ever created. -/
  database : Table Engine String
  /-- Out of the cache, not yet disposed. -/
  retired : List Engine
  disposed : List Engine

/-- `check_database_name`. -/
def checkDatabaseName (name : String) : Bool :=
  match name.toList with
  | [] => false
  | c :: rest =>
    (c.isLower || c = '_') && rest.all (fun c => c.isLower || c.isDigit || c = '_') &&
      rest.length ≤ 62

namespace PoolState

variable (config : PoolConfig) (s : PoolState)

/-- `_engines.get`. -/
def cachedUnder (name : String) : Option Engine := Table.rowOf s.engines name

/-- Some name has the engine. -/
def holds (engine : Engine) : Bool := s.engines.any fun e => e.2 = engine

/-- `_busy`. -/
def busy (engine : Engine) : Bool :=
  0 < (s.pins.lookup engine).getD 0 || 0 < (s.checkedOut.lookup engine).getD 0

/-- An engine goes out of the cache, to be disposed. -/
def drop (name : String) (engine : Engine) : PoolState :=
  { s with
    engines := s.engines.filter fun e => e.1 ≠ name
    lastUsed := s.lastUsed.erase name
    retired := s.retired ++ [engine] }

/-- One name of `_expire_idle`. -/
def expireOne (name : String) : PoolState :=
  match s.cachedUnder name with
  | none => { s with lastUsed := s.lastUsed.erase name }
  | some engine => if s.busy engine then s else s.drop name engine

/-- The names that were last handed out longer ago than the window. -/
def stale (now : ℤ) : List String :=
  (s.lastUsed.entries.filter fun e => now - e.2 > config.idleCloseSeconds).map Sigma.fst

/-- `_expire_idle`. -/
def expireIdle (now : ℤ) : PoolState := (s.stale config now).foldl expireOne s

/-- `_evict_unused_over_cap`, for as many rounds as there are engines. -/
def evictRounds (protect : String) : ℕ → PoolState → PoolState
  | 0, s => s
  | rounds + 1, s =>
    if s.engines.length ≤ config.cacheSize then s
    else match s.engines.find? fun e => e.1 ≠ protect && !s.busy e.2 with
      | none => s
      | some (name, engine) => evictRounds protect rounds (s.drop name engine)

/-- `_evict_unused_over_cap`. -/
def evictUnusedOverCap (protect : String) : PoolState :=
  evictRounds config protect s.engines.length s

/-- The engine of a name goes to the end, or a new one is put there. -/
def handOut (name : String) (fresh : Engine) (now : ℤ) : PoolState × Engine :=
  match s.cachedUnder name with
  | some engine =>
    ({ s with
        engines := s.engines.filter (fun e => e.1 ≠ name) ++ [(name, engine)]
        lastUsed := s.lastUsed.insert name now }, engine)
  | none =>
    ({ s with
        engines := s.engines ++ [(name, fresh)]
        lastUsed := s.lastUsed.insert name now
        database := s.database.insert fresh name }, fresh)

/-- One more pin on an engine. -/
def addPin (engine : Engine) : PoolState :=
  { s with pins := s.pins.insert engine ((s.pins.lookup engine).getD 0 + 1) }

/-- `engine_for`. `fresh` is what `create_engine` would return. -/
def engineFor (name : String) (pin : Bool) (now : ℤ) (fresh : Engine) :
    Except String (PoolState × Engine) :=
  if !checkDatabaseName name then
    .error "database names are lowercase identifiers of at most 63 chars"
  else
    let (handed, engine) := (s.expireIdle config now).handOut name fresh now
    let trimmed := handed.evictUnusedOverCap config name
    .ok (if pin then trimmed.addPin engine else trimmed, engine)

/-- `pin`. -/
def pin (engine : Engine) : Except String PoolState :=
  if !s.holds engine then .error "pin() only accepts an engine this pool currently holds"
  else .ok (s.addPin engine)

/-- `unpin`. -/
def unpin (engine : Engine) : PoolState :=
  let count := (s.pins.lookup engine).getD 0 - 1
  if count = 0 then { s with pins := s.pins.erase engine }
  else { s with pins := s.pins.insert engine count }

/-- `close_idle`. -/
def closeIdle (now : ℤ) : PoolState := s.expireIdle config now

/-- A connection of an engine is taken. -/
def checkOut (engine : Engine) : PoolState :=
  { s with checkedOut := s.checkedOut.insert engine ((s.checkedOut.lookup engine).getD 0 + 1) }

/-- A connection comes back. -/
def giveBack (engine : Engine) : PoolState :=
  { s with checkedOut := s.checkedOut.insert engine ((s.checkedOut.lookup engine).getD 0 - 1) }

/-- `dispose` of a retired engine. -/
def dispose (engine : Engine) : PoolState :=
  { s with retired := s.retired.erase engine, disposed := s.disposed ++ [engine] }

end PoolState

/-- What callers and the pool do, with what the clock reads. An `acquire` block is `engineFor`
with a pin at its start and `unpin` at its end. -/
inductive PoolAction where
  | engineFor (name : String) (pin : Bool) (now : ℤ) (fresh : Engine)
  | pin (engine : Engine)
  | unpin (engine : Engine)
  | checkOut (engine : Engine)
  | giveBack (engine : Engine)
  | closeIdle (now : ℤ)
  | dispose (engine : Engine)

/-- A refused call changes nothing. Connections are taken of engines that were handed out, up to
the size of their pool. -/
def poolStep (config : PoolConfig) (s : PoolState) : PoolAction → Option PoolState
  | .engineFor name pin now fresh =>
    if (s.database.lookup fresh).isSome then none
    else match s.engineFor config name pin now fresh with
      | .error _ => some s
      | .ok answer => some answer.1
  | .pin engine =>
    match s.pin engine with
    | .error _ => some s
    | .ok t => some t
  | .unpin engine => some (s.unpin engine)
  | .checkOut engine =>
    if (s.database.lookup engine).isSome ∧
        (s.checkedOut.lookup engine).getD 0 < config.poolSize then
      some (s.checkOut engine)
    else none
  | .giveBack engine =>
    if 0 < (s.checkedOut.lookup engine).getD 0 then some (s.giveBack engine) else none
  | .closeIdle now => some (s.closeIdle config now)
  | .dispose engine => if engine ∈ s.retired then some (s.dispose engine) else none

/-- A pool that has not handed out anything. -/
def enginePool (config : PoolConfig) : Machine PoolState PoolAction :=
  ⟨fun s => s = ⟨[], ∅, ∅, ∅, ∅, [], []⟩, poolStep config⟩

/-- An unpin takes back a pin. -/
def Matched (s : PoolState) : PoolAction → Bool
  | .unpin engine => 0 < (s.pins.lookup engine).getD 0
  | _ => true

/-- An unpin takes back a pin, and a connection is taken only of an engine that is still
cached. -/
def StillCached (s : PoolState) : PoolAction → Bool
  | .unpin engine => 0 < (s.pins.lookup engine).getD 0
  | .checkOut engine => s.holds engine
  | _ => true

end Rheostream.EnginePool
