import InvoiceReservation.Model.Policies
/-!
# The rate providers

`src/fx/cached-rate.provider.ts`: a call is answered from the cache where
it can be, and else from the table, and what the table answered is kept.
A call reads the clock and its cache entry once, before it queries.
`src/fx/static-rate.provider.ts` looks for the newest entry in a loop.
-/

namespace InvoiceReservation

/-- A row of `fx_rate`. `rate` is the text of its `numeric(20,10)`. -/
structure FxRateRow where
  base : String
  quote : String
  effectiveAt : Timestamp
  rate : String
  source : String
  deriving DecidableEq, Repr

/-- A `timestamptz` as a `Date`: the microseconds below its millisecond are
dropped. -/
def toDate (t : Timestamp) : Timestamp := t / 1000 * 1000

/-- `Entry`. -/
structure Entry where
  value : FxRate
  expiresAt : Timestamp

/-- `CACHE_TTL_MS`. -/
def cacheTtlMs : Int := 60000

/-- The cache, by its keys. -/
abbrev RateCache := String → Option Entry

/-- A call of `rateFor`, with what it read when it began. -/
structure RateCall where
  base : String
  quote : String
  asOf : Timestamp
  now : Timestamp
  cached : Option Entry

/-- The key of a pair. -/
def cacheKey (base quote : String) : String := base ++ ":" ++ quote

/-- The beginning of `rateFor`. -/
def beginRateFor (cache : RateCache) (base quote : String) (asOf now : Timestamp) : RateCall :=
  ⟨base, quote, asOf, now, cache (cacheKey base quote)⟩

namespace RateCall

/-- The cached value, where the call is answered by it. -/
def hit (call : RateCall) : Option FxRate :=
  match call.cached with
  | none => none
  | some entry =>
    if entry.expiresAt > call.now ∧ call.asOf ≥ entry.value.effectiveAt then some entry.value
    else none

/-- The `SELECT`: the newest row that is effective. -/
def select (call : RateCall) (rows : List FxRateRow) : Option FxRateRow :=
  ((rows.filter fun row => row.base = call.base ∧ row.quote = call.quote ∧
    row.effectiveAt ≤ call.asOf).mergeSort fun x y => y.effectiveAt ≤ x.effectiveAt).head?

/-- A row as a rate. -/
def toRate (row : FxRateRow) : Except TypeError FxRate :=
  match h : scaleRate row.rate with
  | .error e => .error e
  | .ok scaledRate => .ok ⟨scaledRate, row.rate, toDate row.effectiveAt, row.source, h⟩

/-- What the query answers the call with. -/
def answer (call : RateCall) (rows : List FxRateRow) : Except TypeError (Option FxRate) :=
  match call.select rows with
  | none => .ok none
  | some row => (toRate row).map some

/-- What `rateFor` resolves to: the cache's value, or else the table's. -/
def outcome (call : RateCall) (rows : List FxRateRow) : Except TypeError (Option FxRate) :=
  match call.hit with
  | some value => .ok (some value)
  | none => call.answer rows

/-- The cache after the query: a value displaces none that is newer. -/
def store (call : RateCall) (value : FxRate) (cache : RateCache) : RateCache :=
  if call.cached.all fun entry => entry.value.effectiveAt ≤ value.effectiveAt then
    fun key => if key = cacheKey call.base call.quote then
      some ⟨value, call.now + cacheTtlMs * 1000⟩ else cache key
  else cache

/-- The cache after the query, whatever it answered. -/
def cacheAfter (call : RateCall) (rows : List FxRateRow) (cache : RateCache) : RateCache :=
  match call.answer rows with
  | .ok (some value) => call.store value cache
  | _ => cache

end RateCall

/-! ## Calls one after another -/

/-- The arguments of a call, and the clock it reads. -/
structure RateLookup where
  base : String
  quote : String
  asOf : Timestamp
  now : Timestamp

/-- The call, as it begins. -/
def RateLookup.call (l : RateLookup) (cache : RateCache) : RateCall :=
  beginRateFor cache l.base l.quote l.asOf l.now

/-- The cache after a call: one that was answered by it sets nothing. -/
def RateLookup.cacheAfter (l : RateLookup) (rows : List FxRateRow) (cache : RateCache) :
    RateCache :=
  match (l.call cache).hit with
  | some _ => cache
  | none => (l.call cache).cacheAfter rows cache

/-- The cache after some calls of a provider that is new. -/
def cachedAfter (rows : List FxRateRow) (lookups : List RateLookup) : RateCache :=
  lookups.foldl (fun cache l => l.cacheAfter rows cache) fun _ => none

/-! ## The static provider -/

/-- One turn of the loop of `StaticRateProvider.rateFor`. -/
def newestEntry (base quote : String) (asOf : Timestamp) (newest : Option FxRateRow)
    (entry : FxRateRow) : Option FxRateRow :=
  if entry.base ≠ base ∨ entry.quote ≠ quote then newest
  else if entry.effectiveAt > asOf then newest
  else
    match newest with
    | none => some entry
    | some old => if entry.effectiveAt > old.effectiveAt then some entry else some old

/-- `StaticRateProvider.rateFor`, over entries with the fields of a row. -/
def staticRateFor (rates : List FxRateRow) (base quote : String) (asOf : Timestamp) :
    Except TypeError (Option FxRate) :=
  match rates.foldl (newestEntry base quote asOf) none with
  | none => .ok none
  | some newest => (RateCall.toRate newest).map some

end InvoiceReservation
