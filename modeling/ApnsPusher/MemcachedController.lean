import ApnsPusher.Effects.Prog
import ApnsPusher.Openframe

/-! The memcached controller over libmemcached. -/
namespace ApnsPusher

open Effects

structure MemcachedControllerException where
  message : Str
  deriving DecidableEq, Repr

inductive MemcachedReturnEnum where
  | notFound
  | success
  | error
  deriving DecidableEq, Repr

namespace Libmemcached

/-- `memcached_return`; only two of its values are told apart. -/
inductive Return where
  | success
  | notFound
  | other (code : Nat)
  deriving DecidableEq, Repr

inductive Call where
  | get (key : Str)
  | set (key value : Str) (expires : Int) (flags : UInt32)
  | replace (key value : Str) (expires : Int) (flags : UInt32)
  | strerror (rc : Return)
  deriving DecidableEq, Repr

abbrev Answer : Call → Type
  | .get _ => Return × Str
  | .set .. | .replace .. => Return
  | .strerror _ => Str

def get (key : Str) : Prog Call Answer (Return × Str) := .perform (Call.get key)

def set (key value : Str) (expires : Int) (flags : UInt32) : Prog Call Answer Return :=
  .perform (Call.set key value expires flags)

def replace (key value : Str) (expires : Int) (flags : UInt32) : Prog Call Answer Return :=
  .perform (Call.replace key value expires flags)

def strerror (rc : Return) : Prog Call Answer Str := .perform (Call.strerror rc)

end Libmemcached

namespace MemcachedController

def cacheKey (ns key : Str) : Str := ns ++ lit ":" ++ key

/-- The two length checks every operation makes before it calls the library. -/
def checkKey (cacheKey : Str) : Except MemcachedControllerException Unit :=
  if cacheKey.length < 1 then
    .error ⟨lit "memcached namespace and key must not be 0 length"⟩
  else if cacheKey.length > 255 then
    .error ⟨lit "memcached namespace and key must be less than 256 characters"⟩
  else .ok ()

/-- The library calls that store a value. -/
inductive Storing where
  | set
  | replace
  deriving DecidableEq, Repr

def Storing.send : Storing → Str → Str → Int → UInt32 →
    Prog Libmemcached.Call Libmemcached.Answer Libmemcached.Return
  | .set => Libmemcached.set
  | .replace => Libmemcached.replace

def Storing.unable : Storing → Str
  | .set => lit "memcached unable to set; "
  | .replace => lit "memcached unable to replace; "

/-- The body that `put` and `replace` share. -/
def store (storing : Storing) (ns key value : Str) (expires : Int) :
    Prog Libmemcached.Call Libmemcached.Answer (Except MemcachedControllerException Unit) :=
  match checkKey (cacheKey ns key) with
  | .error ex => return .error ex
  | .ok _ => do
    let rc ← storing.send (cacheKey ns key) value expires 0
    if rc ≠ .success then
      let text ← Libmemcached.strerror rc
      return .error ⟨storing.unable ++ text⟩
    return .ok ()

def put (ns key value : Str) (expires : Int) :
    Prog Libmemcached.Call Libmemcached.Answer (Except MemcachedControllerException Unit) :=
  store .set ns key value expires

def replace (ns key value : Str) (expires : Int) :
    Prog Libmemcached.Call Libmemcached.Answer (Except MemcachedControllerException Unit) :=
  store .replace ns key value expires

/-- `buf` is the caller's buffer; it is assigned only when the value was found. -/
def get (ns key buf : Str) : Prog Libmemcached.Call Libmemcached.Answer
    (Except MemcachedControllerException MemcachedReturnEnum × Str) :=
  match checkKey (cacheKey ns key) with
  | .error ex => return (.error ex, buf)
  | .ok _ => do
    let (rc, str) ← Libmemcached.get (cacheKey ns key)
    match rc with
    | .success => return (.ok .success, str)
    | .notFound => return (.ok .notFound, buf)
    | .other _ =>
      let text ← Libmemcached.strerror rc
      return (.error ⟨lit "memcached unable to get; " ++ text⟩, buf)

/-- A call of `put` either never reaches the library or sets the joined key once. -/
theorem put_post (ns key value : Str) (expires : Int) : Prog.Post (put ns key value expires)
    fun tr r => (tr = [] ∧ r ≠ .ok ()) ∨
      (tr = [⟨.set (cacheKey ns key) value expires 0, .success⟩] ∧ r = .ok ()) ∨
      ∃ rc text, rc ≠ .success ∧ r ≠ .ok () ∧
        tr = [⟨.set (cacheKey ns key) value expires 0, rc⟩, ⟨.strerror rc, text⟩] := by
  unfold put store
  split
  · simp
  · simp only [Storing.send, Libmemcached.set, Libmemcached.strerror, Prog.perform_bind,
      Prog.post_call]
    intro rc
    by_cases stored : rc = .success
    · simp [stored]
    · simp [stored]

/-- A call of `get` hands over a value only from a successful library call. -/
theorem get_post (ns key buf : Str) : Prog.Post (get ns key buf)
    fun tr r => (tr = [] ∧ r.2 = buf ∧ ∃ ex, r.1 = .error ex) ∨
      (∃ str, tr = [⟨.get (cacheKey ns key), (.success, str)⟩] ∧ r = (.ok .success, str)) ∨
      (∃ str, tr = [⟨.get (cacheKey ns key), (.notFound, str)⟩] ∧ r = (.ok .notFound, buf)) ∨
      ∃ code str text ex, r = (.error ex, buf) ∧
        tr = [⟨.get (cacheKey ns key), (.other code, str)⟩, ⟨.strerror (.other code), text⟩] := by
  unfold get
  split
  · simp
  · simp only [Libmemcached.get, Libmemcached.strerror, Prog.perform_bind, Prog.post_call]
    rintro ⟨rc, str⟩
    cases rc <;> simp

end MemcachedController
end ApnsPusher
