import ApnsPusher.Calls

/-!
# The store

`Store` and the part of `DBI_Apns` it calls. Each function takes the store's
fields and returns them; a caller's buffer that is passed by reference is passed
in and handed back.
-/
namespace ApnsPusher

open Effects

structure MemcacheStats where
  hits : UInt32
  misses : UInt32
  tries : UInt32
  stored : UInt32
  deriving DecidableEq, Repr

structure SqlStats where
  hits : UInt32
  misses : UInt32
  tries : UInt32
  inserted : UInt32
  failed : UInt32
  deriving DecidableEq, Repr

structure Store.ObjStats where
  cacheMessage : MemcacheStats
  cacheRegister : MemcacheStats
  sqlRegister : SqlStats
  lastReportAt : Int
  reportInterval : Int
  createdAt : Int
  deriving DecidableEq, Repr

structure Store where
  stats : Store.ObjStats
  stompstats : Store.ObjStats
  lastCacheFailAt : Int
  deriving DecidableEq, Repr

namespace MemcacheStats

def hit (m : MemcacheStats) : MemcacheStats := { m with hits := m.hits + 1 }
def miss (m : MemcacheStats) : MemcacheStats := { m with misses := m.misses + 1 }
def attempt (m : MemcacheStats) : MemcacheStats := { m with tries := m.tries + 1 }
def store (m : MemcacheStats) : MemcacheStats := { m with stored := m.stored + 1 }

end MemcacheStats

namespace SqlStats

def hit (q : SqlStats) : SqlStats := { q with hits := q.hits + 1 }
def miss (q : SqlStats) : SqlStats := { q with misses := q.misses + 1 }
def attempt (q : SqlStats) : SqlStats := { q with tries := q.tries + 1 }

end SqlStats

namespace Store.ObjStats

def blank : ObjStats := ⟨⟨0, 0, 0, 0⟩, ⟨0, 0, 0, 0⟩, ⟨0, 0, 0, 0, 0⟩, 0, 0, 0⟩

/-- `init_stats`; the report interval is not touched. -/
def initStats (stats : ObjStats) (startup : Bool) : Program ObjStats := do
  let now ← time
  let stats := { stats with
    cacheMessage := ⟨0, 0, 0, 0⟩
    cacheRegister := ⟨0, 0, 0, 0⟩
    sqlRegister := ⟨0, 0, 0, 0, 0⟩
    lastReportAt := now }
  if startup then
    let now ← time
    return { stats with createdAt := now }
  return stats

/-- The integer datapoints `try_stompstats` publishes, in its order. -/
def published (stats : ObjStats) : List (Str × UInt32) :=
  [(lit "store.num.sql.register.tries", stats.sqlRegister.tries),
   (lit "store.num.sql.register.hits", stats.sqlRegister.hits),
   (lit "store.num.sql.register.misses", stats.sqlRegister.misses),
   (lit "store.num.sql.register.inserted", stats.sqlRegister.inserted),
   (lit "store.num.sql.register.failed", stats.sqlRegister.failed),
   (lit "store.num.cache.message.tries", stats.cacheMessage.tries),
   (lit "store.num.cache.message.misses", stats.cacheMessage.misses),
   (lit "store.num.cache.message.hits", stats.cacheMessage.hits),
   (lit "store.num.cache.message.stored", stats.cacheMessage.stored),
   (lit "store.num.cache.register.tries", stats.cacheRegister.tries),
   (lit "store.num.cache.register.misses", stats.cacheRegister.misses),
   (lit "store.num.cache.register.hits", stats.cacheRegister.hits),
   (lit "store.num.cache.register.stored", stats.cacheRegister.stored)]

/-- The counters in the three lines `try_stats` logs. -/
def logged (stats : ObjStats) : List (Str × UInt32) :=
  [(lit "Memcached{message} hits", stats.cacheMessage.hits),
   (lit "Memcached{message} misses", stats.cacheMessage.misses),
   (lit "Memcached{message} tries", stats.cacheMessage.tries),
   (lit "Memcached{register} hits", stats.cacheRegister.hits),
   (lit "Memcached{register} misses", stats.cacheRegister.misses),
   (lit "Memcached{register} tries", stats.cacheRegister.tries),
   (lit "Sql{register} hits", stats.sqlRegister.hits),
   (lit "Sql{register} misses", stats.sqlRegister.misses),
   (lit "Sql{register} tries", stats.sqlRegister.tries)]

end Store.ObjStats

def datapoints : List (Str × UInt32) → Program Unit
  | [] => return ()
  | (name, value) :: rest => do
    Prog.perform (Call.datapoint name value)
    datapoints rest

namespace DbiApns

/-- `DBI_Apns::getApnsRegisterByCallsign`: the row count, and the rows left in `res`. -/
def getApnsRegisterByCallsign (callsign : Str) : Program (Nat × List ApnsRegister) := do
  let reply : QueryReply ← .perform (Call.query callsign)
  match reply with
  -- `numRows` is still 0 when `store` raises; both handlers only log
  | .raised _ => return (0, [])
  -- an exception from the loop over further results comes after the count was taken
  | .stored rows _ => return (rows.length, rows)

/-- What is left of a number of rows in the `int` it is assigned to. -/
def numRows (rows : Nat) : Int := (BitVec.ofNat 32 rows).toInt

/-- `DBI_Apns::setApnsPush`. -/
def setApnsPush (id message : Str) : Program Int := do
  let reply : ExecReply ← .perform (Call.execute id message)
  match reply with
  | .raised _ _ => return 0
  | .executed rows _ => return numRows rows

end DbiApns

namespace Store

/-- The three statistics blocks are kept in two ledgers, always changed together. -/
def onMessage (s : Store) (f : MemcacheStats → MemcacheStats) : Store :=
  { s with
    stats := { s.stats with cacheMessage := f s.stats.cacheMessage }
    stompstats := { s.stompstats with cacheMessage := f s.stompstats.cacheMessage } }

def onRegister (s : Store) (f : MemcacheStats → MemcacheStats) : Store :=
  { s with
    stats := { s.stats with cacheRegister := f s.stats.cacheRegister }
    stompstats := { s.stompstats with cacheRegister := f s.stompstats.cacheRegister } }

def onSql (s : Store) (f : SqlStats → SqlStats) : Store :=
  { s with
    stats := { s.stats with sqlRegister := f s.stats.sqlRegister }
    stompstats := { s.stompstats with sqlRegister := f s.stompstats.sqlRegister } }

def blank : Store := ⟨.blank, .blank, 0⟩

/-- The constructor; every field of the two ledgers is assigned. -/
def create (reportInterval : Int) : Program Store := do
  let stats ← ObjStats.blank.initStats true
  let stompstats ← ObjStats.blank.initStats true
  return {
    stats := { stats with reportInterval := reportInterval }
    stompstats := { stompstats with reportInterval := 5 }
    lastCacheFailAt := 0 }

def tryStompstats (s : Store) : Program Store := do
  let now ← time
  if s.stompstats.lastReportAt > now - s.stompstats.reportInterval then return s
  datapoints s.stompstats.published
  let stompstats ← s.stompstats.initStats false
  return { s with stompstats := stompstats }

def tryStats (s : Store) : Program Store := do
  let s ← s.tryStompstats
  let now ← time
  if s.stats.lastReportAt > now - s.stats.reportInterval then return s
  Prog.perform (Call.report s.stats.logged)
  let stats ← s.stats.initStats false
  return { s with stats := stats }

def isMemcachedOk (s : Store) : Program Bool := do
  let now ← time
  return s.lastCacheFailAt < now - 60

/-- The `try` block around `_memcached->get` with its handler. The local `mcr` is
declared without a value, so after an exception it holds what was there before. -/
def tryGet (s : Store) (ns key : Str) : Program (Store × MemcachedReturnEnum × Str) := do
  let reply : Except MemcachedControllerException MemcachedReturnEnum × Str ←
    .perform (Call.memcachedGet ns key [])
  match reply with
  | (.ok mcr, buf) => return (s, mcr, buf)
  | (.error _, buf) =>
    let now ← time
    let mcr ← indeterminate
    return ({ s with lastCacheFailAt := now }, mcr, buf)

/-- The body `getApnsRegisterFromMemcached` and `getMessageFromMemcached` share;
`on` picks the statistics block. -/
def getFromMemcached (on : Store → (MemcacheStats → MemcacheStats) → Store) (ns key : Str)
    (s : Store) (ret : Str) : Program ((Bool × Str) × Store) := do
  if !(← s.isMemcachedOk) then return ((false, ret), s)
  let s := on s .attempt
  let (s, mcr, buf) ← s.tryGet ns key
  if mcr ≠ .success then return ((false, ret), on s .miss)
  return ((true, buf), on s .hit)

/-- The body `setApnsRegisterInMemcached` and `setMessageInMemcached` share. -/
def setInMemcached (on : Store → (MemcacheStats → MemcacheStats) → Store) (ns key : Str)
    (s : Store) (buf : Str) (expire : Int) : Program (Bool × Store) := do
  if !(← s.isMemcachedOk) then return (false, s)
  let reply : Except MemcachedControllerException Unit ←
    .perform (Call.memcachedPut ns key buf expire)
  match reply with
  | .ok _ => return (true, on s .store)
  | .error _ =>
    let now ← time
    return (false, { s with lastCacheFailAt := now })

def getMessageFromMemcached (s : Store) (hash ret : Str) : Program ((Bool × Str) × Store) :=
  getFromMemcached onMessage (lit "pushmessage") hash s ret

def setMessageInMemcached (s : Store) (hash buf : Str) (expire : Int) : Program (Bool × Store) :=
  setInMemcached onMessage (lit "pushmessage") hash s buf expire

section Register

variable (lib : Openframe)

def getApnsRegisterFromMemcached (s : Store) (callsign ret : Str) :
    Program ((Bool × Str) × Store) :=
  getFromMemcached onRegister (lit "apnsregister") (lib.toUpper callsign) s ret

def setApnsRegisterInMemcached (s : Store) (callsign buf : Str) (expire : Int) :
    Program (Bool × Store) :=
  setInMemcached onRegister (lit "apnsregister") (lib.toUpper callsign) s buf expire

/-- What a payload read from memcached says. -/
inductive Cached where
  | notFound
  | found (rows : List ApnsRegister)
  /-- The loop over the tokens would index past their end. -/
  | outOfRange
  /-- Not one of the two entries: the lookup goes on to SQL. -/
  | unusable
  deriving DecidableEq

/-- The loop with stride three over the tokens. -/
def readRows (st : List Str) : Option (List ApnsRegister) :=
  (Text.inThrees st).map fun groups => groups.map fun (a, b, c) => ⟨a, b, c⟩

/-- The nested tests on a payload read from memcached. -/
def readCached (buf : Str) : Cached :=
  let v := lib.parse buf
  if lib.is v (lit "fnd") then
    if lib.get v (lit "fnd") = lit "0" then .notFound
    else if lib.get v (lit "fnd") = lit "1" ∧ lib.is v (lit "bdy") = true then
      let st := lib.stringToken comma (lib.get v (lit "bdy"))
      if st.length ≠ 0 ∧ st.length % 3 = 0 then
        match readRows st with
        | some rows => .found rows
        | none => .outOfRange
      else .unusable
    else .unusable
  else .unusable

/-- The text streamed into `bdy`, from row number `i` on. -/
def streamRows (i : Nat) : List ApnsRegister → Str
  | [] => []
  | ar :: rest =>
    (if i ≠ 0 then lit "," else lit "") ++ ar.id ++ lit "," ++ ar.deviceToken ++ lit "," ++
      ar.environment ++ streamRows (i + 1) rest

def notFoundEntry : Str := lib.compile (lib.add lib.empty (lit "fnd") (lit "0"))

def foundEntry (rows : List ApnsRegister) : Str :=
  lib.compile (lib.add (lib.add lib.empty (lit "bdy") (streamRows 0 rows)) (lit "fnd") (lit "1"))

/-- The part of the lookup after the cache: ask SQL, append the rows, write the entry. -/
def askSql (s : Store) (callsign : Str) (ret : List ApnsRegister) :
    Program ((Nat × List ApnsRegister) × Store) := do
  let s := s.onSql .attempt
  let (numRows, res) ← DbiApns.getApnsRegisterByCallsign callsign
  if numRows = 0 then
    let s := s.onSql .miss
    let (_, s) ← s.setApnsRegisterInMemcached lib callsign (notFoundEntry lib) 3600
    return ((0, ret), s)
  let s := s.onSql .hit
  let ret := ret ++ res
  let (_, s) ← s.setApnsRegisterInMemcached lib callsign (foundEntry lib res) 3600
  return ((ret.length, ret), s)

/-- `ret` is the caller's list; the count returned comes first. -/
def getApnsRegisterByCallsign (s : Store) (callsign : Str) (ret : List ApnsRegister) :
    Program ((Nat × List ApnsRegister) × Store) := do
  let ((ok, buf), s) ← s.getApnsRegisterFromMemcached lib callsign []
  if ok then
    match readCached lib buf with
    | .notFound => return ((0, ret), s)
    | .found rows => return (((ret ++ rows).length, ret ++ rows), s)
    -- undefined behaviour in the source; `readCached` never says so
    | .outOfRange => return ((0, ret), s)
    | .unusable => s.askSql lib callsign ret
  else s.askSql lib callsign ret

end Register

def setApnsPush (id message : Str) : Program Int := DbiApns.setApnsPush id message

end Store

/-- A call of one of the store's public cache operations, with its arguments. -/
inductive StoreOp where
  | getApnsRegisterByCallsign (callsign : Str) (ret : List ApnsRegister)
  | getApnsRegisterFromMemcached (callsign ret : Str)
  | setApnsRegisterInMemcached (callsign buf : Str) (expire : Int)
  | getMessageFromMemcached (hash ret : Str)
  | setMessageInMemcached (hash buf : Str) (expire : Int)
  deriving DecidableEq

inductive StoreOut where
  | lookup (count : Nat) (ret : List ApnsRegister)
  | get (ok : Bool) (ret : Str)
  | set (ok : Bool)
  deriving DecidableEq

def StoreOp.program (lib : Openframe) : StoreOp → Store → Program (StoreOut × Store)
  | .getApnsRegisterByCallsign callsign ret, s => do
    let ((count, ret), s) ← s.getApnsRegisterByCallsign lib callsign ret
    return (.lookup count ret, s)
  | .getApnsRegisterFromMemcached callsign ret, s => do
    let ((ok, ret), s) ← s.getApnsRegisterFromMemcached lib callsign ret
    return (.get ok ret, s)
  | .setApnsRegisterInMemcached callsign buf expire, s => do
    let (ok, s) ← s.setApnsRegisterInMemcached lib callsign buf expire
    return (.set ok, s)
  | .getMessageFromMemcached hash ret, s => do
    let ((ok, ret), s) ← s.getMessageFromMemcached hash ret
    return (.get ok ret, s)
  | .setMessageInMemcached hash buf expire, s => do
    let (ok, s) ← s.setMessageInMemcached hash buf expire
    return (.set ok, s)
end ApnsPusher
