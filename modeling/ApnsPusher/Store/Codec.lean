import Mathlib.Algebra.GroupWithZero.Nat
import Mathlib.Data.List.Basic
import ApnsPusher.Store.Traces

/-!
# The register entry

The rows of a lookup are flattened into one comma separated value and read back
by cutting it into non-empty pieces, three to a row.
-/
namespace ApnsPusher.Store

open Effects Text

def fieldsOf (rows : List ApnsRegister) : List Str :=
  rows.flatMap fun ar => [ar.id, ar.deviceToken, ar.environment]

def CleanRows (rows : List ApnsRegister) : Prop := ∀ field ∈ fieldsOf rows, Clean comma field

instance (rows : List ApnsRegister) : Decidable (CleanRows rows) :=
  inferInstanceAs (Decidable (∀ field ∈ fieldsOf rows, Clean comma field))

/-- The number of non-empty comma separated pieces in all fields of the rows. -/
def pieceCount (rows : List ApnsRegister) : Nat :=
  ((fieldsOf rows).map fun field => (pieces comma field).length).sum

@[simp] theorem length_fieldsOf (rows : List ApnsRegister) :
    (fieldsOf rows).length = 3 * rows.length := by
  simp [fieldsOf, List.length_flatMap, Nat.mul_comm]

theorem streamRows_succ (i : Nat) (row : ApnsRegister) (rest : List ApnsRegister) :
    streamRows (i + 1) (row :: rest) = comma :: [comma].intercalate (fieldsOf (row :: rest)) := by
  induction rest generalizing i row with
  | nil => simp [streamRows, fieldsOf, lit, comma, List.intercalate_cons_cons]
  | cons next rest ih =>
    rw [streamRows, ih]
    simp [fieldsOf, lit, comma, List.intercalate_cons_cons]

theorem streamRows_zero (rows : List ApnsRegister) :
    streamRows 0 rows = [comma].intercalate (fieldsOf rows) := by
  cases rows with
  | nil => rfl
  | cons row rest =>
    cases rest with
    | nil => simp [streamRows, fieldsOf, lit, comma, List.intercalate_cons_cons]
    | cons next rest =>
      rw [streamRows, streamRows_succ]
      simp [fieldsOf, lit, comma, List.intercalate_cons_cons]

theorem streamRows_ne_nil (rows : List ApnsRegister) (nonempty : rows ≠ []) :
    streamRows 0 rows ≠ [] := by
  cases rows with
  | nil => exact absurd rfl nonempty
  | cons row rest => simp [streamRows, lit]

section Reading

variable (lib : Openframe) (roundTrips : lib.RoundTrips) (tokenizes : lib.Tokenizes)
include roundTrips

theorem readCached_notFoundEntry : readCached lib (notFoundEntry lib) = .notFound := by
  simp only [readCached, notFoundEntry, roundTrips.notFound_is, roundTrips.notFound_get, if_true]

include tokenizes

/-- What reading a written entry amounts to. -/
theorem readCached_foundEntry (rows : List ApnsRegister) (nonempty : rows ≠ []) :
    readCached lib (foundEntry lib rows) =
      if pieceCount rows ≠ 0 ∧ pieceCount rows % 3 = 0 then
        match readRows ((fieldsOf rows).flatMap (pieces comma)) with
        | some rows' => .found rows'
        | none => .outOfRange
      else .unusable := by
  have bdy := streamRows_ne_nil rows nonempty
  have one : lit "1" ≠ lit "0" := by decide
  have count : ((fieldsOf rows).flatMap (pieces comma)).length = pieceCount rows :=
    List.length_flatMap
  have tokens : lib.stringToken comma (streamRows 0 rows) = (fieldsOf rows).flatMap (pieces comma) := by
    rw [tokenizes, streamRows_zero, pieces_intercalate]
  unfold readCached foundEntry
  simp only [roundTrips.found_is_fnd _ bdy, roundTrips.found_get_fnd _ bdy,
    roundTrips.found_is_bdy _ bdy, roundTrips.found_get_bdy _ bdy, if_true, if_neg one, and_self]
  rewrite [← count, ← tokens]
  rfl

theorem readCached_foundEntry_ne_notFound (rows : List ApnsRegister) (nonempty : rows ≠ []) :
    readCached lib (foundEntry lib rows) ≠ .notFound := by
  rw [readCached_foundEntry lib roundTrips tokenizes rows nonempty]
  intro reads
  split at reads
  · split at reads <;> cases reads
  · cases reads

theorem readCached_foundEntry_eq_found_iff (rows : List ApnsRegister) (nonempty : rows ≠ []) :
    readCached lib (foundEntry lib rows) = .found rows ↔ CleanRows rows := by
  rw [readCached_foundEntry lib roundTrips tokenizes rows nonempty]
  have flat := flatMap_pieces_eq_iff comma (fieldsOf rows)
  constructor
  · intro found
    split at found
    -- decoded as found: the pieces, regrouped, are the fields themselves
    · split at found
      next rows' grouped =>
        rw [readRows_eq_some_iff] at grouped
        cases found
        exact flat.mp grouped
      · cases found
    · cases found
  · intro clean
    have same := flat.mpr clean
    -- clean fields are their own pieces, three to a row
    have count : pieceCount rows = 3 * rows.length := by
      rw [← length_fieldsOf, ← congrArg List.length same, List.length_flatMap, pieceCount]
    have positive : rows.length ≠ 0 := by simpa using nonempty
    rw [if_pos (by omega), same, (readRows_eq_some_iff (fieldsOf rows) rows).mpr rfl]

theorem readCached_foundEntry_eq_unusable_iff (rows : List ApnsRegister) (nonempty : rows ≠ []) :
    readCached lib (foundEntry lib rows) = .unusable ↔
      ¬ (pieceCount rows ≠ 0 ∧ pieceCount rows % 3 = 0) := by
  rw [readCached_foundEntry lib roundTrips tokenizes rows nonempty]
  constructor
  · intro unusable counted
    rw [if_pos counted] at unusable
    split at unusable <;> cases unusable
  · exact fun uncounted => if_neg uncounted

/-- Clean rows come back from their entry as they went in. -/
theorem readCached_entryFor (rows : List ApnsRegister) (clean : CleanRows rows) :
    readCached lib (entryFor lib rows) = if rows = [] then .notFound else .found rows := by
  unfold entryFor
  split
  · exact readCached_notFoundEntry lib roundTrips
  next nonempty =>
    exact (readCached_foundEntry_eq_found_iff lib roundTrips tokenizes rows nonempty).mpr clean

theorem settles_entryFor_iff (rows rows' : List ApnsRegister) (clean : CleanRows rows) :
    Settles lib (entryFor lib rows) rows' ↔ rows' = rows := by
  rw [Settles, readCached_entryFor lib roundTrips tokenizes rows clean]
  by_cases none : rows = []
  · simp [none]
  · simp [none, eq_comm]

end Reading

/-! ## One lookup writes, a later one reads -/

/-- The value a lookup puts is the entry for the rows its query stored. -/
theorem put_eq_entryFor (lib : Openframe) {s : Store} {callsign : Str} {ret : List ApnsRegister}
    {tr : Trace} {result : (Nat × List ApnsRegister) × Store}
    (lookup : LookupTrace lib s callsign ret tr result) {reply : QueryReply}
    (asked : (⟨.query callsign, reply⟩ : Event Call Answer) ∈ tr) {ns key value : Str}
    {expires : Int} {stored : Except MemcachedControllerException Unit}
    (put : (⟨.memcachedPut ns key value expires, stored⟩ : Event Call Answer) ∈ tr) :
    value = entryFor lib reply.rows := by
  cases lookup with
  | cachedNotFound _ _ _ get _ => simpa using get.calls _ asked
  | cachedFound _ _ _ _ get _ => simpa using get.calls _ asked
  | asked got ok buf s' reply' rest wrote s'' get _ set =>
    have same : reply = reply' := by
      rcases List.mem_append.mp asked with member | member
      · simpa using get.calls _ member
      · rcases List.mem_cons.mp member with equal | member
        · simpa using equal
        · simpa using set.calls _ member
    subst same
    rcases List.mem_append.mp put with member | member
    · simpa using get.calls _ member
    · rcases List.mem_cons.mp member with equal | member
      · cases equal
      · exact (set.put_mem member).2.2.1

/-- The reader took the rows of the entry, and no others. -/
def TookRows (rows ret out : List ApnsRegister) (tr : Trace) : Prop :=
  out = ret ++ rows ∧ ∀ callsign reply, (⟨.query callsign, reply⟩ : Event Call Answer) ∉ tr

/-- The reader rejected the entry: it asked SQL and took what SQL said. -/
def WentToSql (callsign : Str) (ret out : List ApnsRegister) (tr : Trace) : Prop :=
  ∃ reply, (⟨.query callsign, reply⟩ : Event Call Answer) ∈ tr ∧ out = ret ++ reply.rows

/-- What a lookup does with a payload that memcached hands it. -/
theorem lookup_of_cached (lib : Openframe) {s s' : Store} {callsign : Str}
    {ret out : List ApnsRegister} {tr : Trace} {count : Nat}
    (lookup : LookupTrace lib s callsign ret tr ((count, out), s')) {ns key buf payload : Str}
    (got : (⟨.memcachedGet ns key buf, (.ok .success, payload)⟩ : Event Call Answer) ∈ tr) :
    (readCached lib payload = .notFound ∧ TookRows [] ret out tr) ∨
    (∃ rows, readCached lib payload = .found rows ∧ TookRows rows ret out tr) ∨
    (readCached lib payload = .unusable ∧ WentToSql callsign ret out tr) := by
  cases lookup with
  | cachedNotFound _ buf' _ get reads =>
    obtain ⟨rfl⟩ := (Prod.mk.inj (get.handedOver got)).2
    refine Or.inl ⟨reads, (List.append_nil ret).symm, ?_⟩
    intro callsign' reply asked
    simpa using get.calls _ asked
  | cachedFound _ buf' _ rows get reads =>
    obtain ⟨rfl⟩ := (Prod.mk.inj (get.handedOver got)).2
    refine Or.inr (Or.inl ⟨rows, reads, rfl, ?_⟩)
    intro callsign' reply asked
    simpa using get.calls _ asked
  | asked front ok buf' s₁ reply rest wrote s₂ get reads set =>
    have member : (⟨.memcachedGet ns key buf, (.ok .success, payload)⟩ : Event Call Answer) ∈ front := by
      rcases List.mem_append.mp got with member | member
      · exact member
      · rcases List.mem_cons.mp member with equal | member
        · cases equal
        · simpa using set.calls _ member
    obtain ⟨rfl, rfl⟩ := Prod.mk.inj (get.handedOver member)
    exact Or.inr (Or.inr ⟨reads rfl, reply, by simp, rfl⟩)

/-- One lookup stored `rows` from SQL and put an entry; a later lookup, with `before`
in its list, was handed that entry, left `out` in the list and made the calls `read`. -/
inductive ReadBack (lib : Openframe) (rows : List ApnsRegister) (callsign : Str)
    (before out : List ApnsRegister) (read : Trace) : Prop
  | intro (writer : Store) (target : Str) (ret : List ApnsRegister) (written : Trace)
      (result : (Nat × List ApnsRegister) × Store)
      (writes : Prog.Runs (getApnsRegisterByCallsign lib writer target ret) written result)
      (drained : Except MysqlppException Unit)
      (asked : (⟨.query target, .stored rows drained⟩ : Event Call Answer) ∈ written)
      (ns key entry : Str) (expires : Int) (stored : Except MemcachedControllerException Unit)
      (put : (⟨.memcachedPut ns key entry expires, stored⟩ : Event Call Answer) ∈ written)
      (reader reader' : Store) (count : Nat)
      (reads : Prog.Runs (getApnsRegisterByCallsign lib reader callsign before) read
        ((count, out), reader'))
      (ns' key' buf : Str)
      (got : (⟨.memcachedGet ns' key' buf, (.ok .success, entry)⟩ : Event Call Answer) ∈ read)

/-- What the reader does is decided by what the entry is read as. -/
theorem ReadBack.decided {lib : Openframe} (roundTrips : lib.RoundTrips) (tokenizes : lib.Tokenizes)
    {rows : List ApnsRegister} (nonempty : rows ≠ []) {callsign : Str} {before out : List ApnsRegister}
    {read : Trace} (readBack : ReadBack lib rows callsign before out read) :
    (TookRows rows before out read ↔ readCached lib (foundEntry lib rows) = .found rows) ∧
      (WentToSql callsign before out read ↔ readCached lib (foundEntry lib rows) = .unusable) := by
  obtain ⟨writer, target, ret, written, result, writes, drained, asked, ns, key, entry, expires,
    stored, put, reader, reader', count, reads, ns', key', buf, got⟩ := readBack
  have value := put_eq_entryFor lib (lookupTrace_of_runs writes) asked put
  rw [entryFor, show QueryReply.rows (.stored rows drained) = rows from rfl, if_neg nonempty] at value
  subst value
  -- a written entry with rows is never read as 'not found'
  rcases lookup_of_cached lib (lookupTrace_of_runs reads) got with
    ⟨payload, _⟩ | ⟨rows', payload, took, none⟩ | ⟨payload, reply, query, took⟩
  · exact absurd payload (readCached_foundEntry_ne_notFound lib roundTrips tokenizes rows nonempty)
  · rw [payload]
    constructor
    · constructor
      · rintro ⟨same, _⟩
        rw [List.append_cancel_left (took.symm.trans same)]
      · intro same
        cases same
        exact ⟨took, none⟩
    · constructor
      · rintro ⟨reply, query, _⟩
        exact absurd query (none callsign reply)
      · exact fun other => by cases other
  · rw [payload]
    constructor
    · constructor
      · rintro ⟨_, none⟩
        exact absurd query (none callsign reply)
      · exact fun other => by cases other
    · exact ⟨fun _ => rfl, fun _ => ⟨reply, query, took⟩⟩

/-- A written entry read back unchanged is decoded to exactly its rows or
rejected, if and only if the rows are clean or their pieces do not come to a
positive multiple of three. -/
theorem readBack_iff (lib : Openframe) (roundTrips : lib.RoundTrips) (tokenizes : lib.Tokenizes)
    (rows : List ApnsRegister) (nonempty : rows ≠ []) (callsign : Str)
    (before out : List ApnsRegister) (read : Trace)
    (readBack : ReadBack lib rows callsign before out read) :
    TookRows rows before out read ∨ WentToSql callsign before out read ↔
      CleanRows rows ∨ ¬ (pieceCount rows ≠ 0 ∧ pieceCount rows % 3 = 0) := by
  obtain ⟨took, went⟩ := readBack.decided roundTrips tokenizes nonempty
  rw [took, went, readCached_foundEntry_eq_found_iff lib roundTrips tokenizes rows nonempty,
    readCached_foundEntry_eq_unusable_iff lib roundTrips tokenizes rows nonempty]

/-- Surroundings in which SQL stores `rows` and memcached hands over `cached`. -/
def readBackScript (rows : List ApnsRegister)
    (cached : Except MemcachedControllerException MemcachedReturnEnum × Str) : Script where
  clock := 1000
  get := cached
  put := .ok ()
  query := .stored rows (.ok ())
  execute := .executed 1 (.ok ())
  accepts _ := true
  frame := .none

/-- The writer's run when SQL stores `rows`. -/
def playWriting (rows : List ApnsRegister) : Trace × (Nat × List ApnsRegister) × Store :=
  Prog.play (readBackScript rows (.ok .notFound, [])).answers 0
    (getApnsRegisterByCallsign .textual .blank (lit "N0CALL") [])

/-- The reader's run when the entry for `rows` is in memcached. -/
def playReadBack (rows : List ApnsRegister) : Trace × (Nat × List ApnsRegister) × Store :=
  Prog.play (readBackScript [] (.ok .success, foundEntry .textual rows)).answers 0
    (getApnsRegisterByCallsign .textual .blank (lit "N0CALL") [])

theorem readBack_of_played {rows out : List ApnsRegister}
    (asked : ⟨.query (lit "N0CALL"), .stored rows (.ok ())⟩ ∈ (playWriting rows).1)
    (put : ⟨.memcachedPut (lit "apnsregister") (lit "N0CALL") (foundEntry .textual rows) 3600,
      .ok ()⟩ ∈ (playWriting rows).1)
    (read : (playReadBack rows).2.1.2 = out)
    (got : ⟨.memcachedGet (lit "apnsregister") (lit "N0CALL") [],
      (.ok .success, foundEntry .textual rows)⟩ ∈ (playReadBack rows).1) :
    ReadBack .textual rows (lit "N0CALL") [] out (playReadBack rows).1 := by
  subst read
  exact .intro .blank (lit "N0CALL") [] _ _ (Prog.play_runs _ 0 _) (.ok ()) asked
    (lit "apnsregister") (lit "N0CALL") _ 3600 (.ok ()) put .blank _ _ (Prog.play_runs _ 0 _)
    (lit "apnsregister") (lit "N0CALL") [] got

def oneRow : List ApnsRegister := [⟨lit "7", lit "aabb", lit "prod"⟩]

def twoRows : List ApnsRegister := oneRow ++ [⟨lit "8", lit "ccdd", lit "sandbox"⟩]

theorem readBack_twoRows :
    ReadBack .textual twoRows (lit "N0CALL") [] twoRows (playReadBack twoRows).1 :=
  readBack_of_played (by decide) (by decide) (by decide) (by decide)

theorem readBack_iff_twoRows :
    TookRows twoRows [] twoRows (playReadBack twoRows).1 ∨
      WentToSql (lit "N0CALL") [] twoRows (playReadBack twoRows).1 ↔
    CleanRows twoRows ∨ ¬ (pieceCount twoRows ≠ 0 ∧ pieceCount twoRows % 3 = 0) :=
  readBack_iff .textual Openframe.textual_roundTrips Openframe.textual_tokenizes twoRows
    (by decide) (lit "N0CALL") [] twoRows _ readBack_twoRows

/-- A written entry is decoded to exactly its rows if and only if no field of any
row is empty or holds a comma. -/
theorem decoded_iff (lib : Openframe) (roundTrips : lib.RoundTrips) (tokenizes : lib.Tokenizes)
    (rows : List ApnsRegister) (nonempty : rows ≠ []) (callsign : Str)
    (before out : List ApnsRegister) (read : Trace)
    (readBack : ReadBack lib rows callsign before out read) :
    TookRows rows before out read ↔
      ∀ row ∈ rows, ∀ field ∈ [row.id, row.deviceToken, row.environment],
        field ≠ [] ∧ comma ∉ field := by
  rw [(readBack.decided roundTrips tokenizes nonempty).1,
    readCached_foundEntry_eq_found_iff lib roundTrips tokenizes rows nonempty]
  constructor
  · exact fun clean row member field part => clean field (List.mem_flatMap.mpr ⟨row, member, part⟩)
  · intro clean field member
    obtain ⟨row, source, part⟩ := List.mem_flatMap.mp member
    exact clean row source field part

theorem decoded_iff_twoRows : TookRows twoRows [] twoRows (playReadBack twoRows).1 ↔
    ∀ row ∈ twoRows, ∀ field ∈ [row.id, row.deviceToken, row.environment],
      field ≠ [] ∧ comma ∉ field :=
  decoded_iff .textual Openframe.textual_roundTrips Openframe.textual_tokenizes twoRows
    (by decide) (lit "N0CALL") [] twoRows _ readBack_twoRows

/-- Two rows, one without a device token and one whose token holds a comma. -/
def shiftedRows : List ApnsRegister :=
  [⟨lit "1", [], lit "prod"⟩, ⟨lit "2", lit "aa,bb", lit "prod"⟩]

/-- The two shifts cancel: the entry passes the count and comes back as two other rows. -/
theorem shiftedRows_misread : ¬ ∀ (lib : Openframe) (rows : List ApnsRegister) (callsign : Str)
    (before out : List ApnsRegister) (read : Trace), lib.RoundTrips → lib.Tokenizes → rows ≠ [] →
    ReadBack lib rows callsign before out read →
    TookRows rows before out read ∨ WentToSql callsign before out read := by
  intro safe
  have made : (playReadBack shiftedRows).1 = [⟨.time, (1000 : Int)⟩,
      ⟨.memcachedGet (lit "apnsregister") (lit "N0CALL") [],
        (.ok .success, foundEntry .textual shiftedRows)⟩] := by decide
  rcases safe .textual shiftedRows (lit "N0CALL") []
    [⟨lit "1", lit "prod", lit "2"⟩, ⟨lit "aa", lit "bb", lit "prod"⟩] (playReadBack shiftedRows).1
    Openframe.textual_roundTrips Openframe.textual_tokenizes (by decide)
    (readBack_of_played (by decide) (by decide) (by decide) (by decide)) with
    ⟨same, _⟩ | ⟨reply, asked, _⟩
  · revert same
    decide
  · rw [made] at asked
    simp at asked

end ApnsPusher.Store
