import InvoiceReservation.Common.Latest
import InvoiceReservation.Common.Separated
import InvoiceReservation.Helpers.Conversions
import InvoiceReservation.Model.Seed
/-!
# When the rate cache is transparent

The static provider gives what the port promises, the newest rate that is
effective. The cached one gives the same unless it answers from an entry
whose rate another has since overtaken: the entry keeps when its rate took
effect and not until when it is the newest.
-/

namespace InvoiceReservation

variable {rows : List FxRateRow} {base quote : String} {asOf : Timestamp} {call : RateCall}
variable {cache : RateCache} {value : FxRate}

/-! ## What the port promises -/

/-- A row of a pair that is effective at an instant. -/
def Effective (base quote : String) (asOf : Timestamp) (row : FxRateRow) : Prop :=
  row.base = base ∧ row.quote = quote ∧ row.effectiveAt ≤ asOf

instance : DecidablePred (Effective base quote asOf) := fun row =>
  inferInstanceAs (Decidable (row.base = base ∧ row.quote = quote ∧ row.effectiveAt ≤ asOf))

/-- `FxRateProvider.rateFor`: the newest rate that is effective, or none
when the pair has none. -/
def Promised (rows : List FxRateRow) (base quote : String) (asOf : Timestamp)
    (outcome : Except TypeError (Option FxRate)) : Prop :=
  (∃ row, Latest (Effective base quote asOf) (·.effectiveAt) rows row ∧
    outcome = (RateCall.toRate row).map some) ∨
  ((∀ row ∈ rows, ¬ Effective base quote asOf row) ∧ outcome = .ok none)

/-- A table with one row for a pair and an instant. -/
def OneRatePerInstant (rows : List FxRateRow) : Prop :=
  (rows.map fun row => (row.base, row.quote, row.effectiveAt)).Nodup

theorem OneRatePerInstant.injective (h : OneRatePerInstant rows) : ∀ r ∈ rows, ∀ r' ∈ rows,
    Effective base quote asOf r → Effective base quote asOf r' →
      r.effectiveAt = r'.effectiveAt → r = r' := by
  intro r hr r' hr' he he' htime
  refine List.inj_on_of_nodup_map h hr hr' ?_
  rw [he.1, he.2.1, he'.1, he'.2.1, htime]

theorem OneRatePerInstant.unique (h : OneRatePerInstant rows)
    {outcome outcome' : Except TypeError (Option FxRate)}
    (hp : Promised rows base quote asOf outcome) (hp' : Promised rows base quote asOf outcome') :
    outcome = outcome' := by
  rcases hp with ⟨row, hrow, rfl⟩ | ⟨hnone, rfl⟩ <;>
    rcases hp' with ⟨row', hrow', rfl⟩ | ⟨hnone', rfl⟩
  · rw [hrow.unique hrow' h.injective]
  · exact absurd hrow.holds (hnone' row hrow.mem)
  · exact absurd hrow'.holds (hnone row' hrow'.mem)
  · rfl

/-- A turn of the static provider's loop keeps the later of two rows. -/
theorem newestEntry_eq : newestEntry base quote asOf =
    Latest.keep (Effective base quote asOf) (·.effectiveAt) := by
  funext newest entry
  unfold newestEntry Latest.keep
  by_cases heffective : Effective base quote asOf entry
  · have hpair : ¬ (entry.base ≠ base ∨ entry.quote ≠ quote) := by
      rw [heffective.1, heffective.2.1]
      simp
    rw [if_neg hpair, if_neg (not_lt.mpr heffective.2.2), if_pos heffective]
    cases newest <;> rfl
  · rw [if_neg heffective]
    split
    · rfl
    · rename_i hpair
      have hlate : entry.effectiveAt > asOf := by
        by_contra hlate
        refine heffective ⟨?_, ?_, not_lt.mp hlate⟩ <;> tauto
      rw [if_pos hlate]

/-- **The static provider keeps the promise.** -/
theorem staticRateFor_promised :
    Promised rows base quote asOf (staticRateFor rows base quote asOf) := by
  have hfound := @Latest.found_foldl _ _ _ (Effective base quote asOf) (·.effectiveAt) rows _
  rw [← newestEntry_eq] at hfound
  unfold staticRateFor
  generalize rows.foldl (newestEntry base quote asOf) none = newest at hfound
  cases newest with
  | none => exact Or.inr ⟨hfound, rfl⟩
  | some row => exact Or.inl ⟨row, hfound, rfl⟩

/-- **The query keeps the promise.** -/
theorem RateCall.answer_promised :
    Promised rows call.base call.quote call.asOf (call.answer rows) := by
  have hfound := @Latest.found_mergeSort _ _ _ (Effective call.base call.quote call.asOf)
    (·.effectiveAt) rows _
  have hselect : call.select rows =
      ((rows.filter (Effective call.base call.quote call.asOf)).mergeSort
      fun x y => decide (y.effectiveAt ≤ x.effectiveAt)).head? := rfl
  rw [← hselect] at hfound
  unfold RateCall.answer
  generalize call.select rows = newest at hfound
  cases newest with
  | none => exact Or.inr ⟨hfound, rfl⟩
  | some row => exact Or.inl ⟨row, hfound, rfl⟩

/-! ## What the cache holds -/

/-- A key tells its pair apart, where the base is a currency code. -/
theorem cacheKey_inj {base' quote' : String} (hbase : isCurrencyCode base = true)
    (hbase' : isCurrencyCode base' = true) (h : cacheKey base quote = cacheKey base' quote') :
    base = base' ∧ quote = quote' := by
  have hlists : base.toList ++ ':' :: quote.toList = base'.toList ++ ':' :: quote'.toList := by
    have := congrArg String.toList h
    simpa [cacheKey] using this
  obtain ⟨hb, hq⟩ := Separated.split_first (isCurrencyCode_separated hbase (by decide))
    (isCurrencyCode_separated hbase' (by decide)) hlists
  exact ⟨String.toList_injective hb, String.toList_injective hq⟩

/-- A rate that is a row's of the pair. -/
def OfPair (rows : List FxRateRow) (base quote : String) (value : FxRate) : Prop :=
  ∃ row ∈ rows, row.base = base ∧ row.quote = quote ∧ RateCall.toRate row = .ok value

/-- Every entry holds a rate of its pair. -/
def Sourced (rows : List FxRateRow) (cache : RateCache) : Prop :=
  ∀ base quote entry, isCurrencyCode base = true → cache (cacheKey base quote) = some entry →
    OfPair rows base quote entry.value

theorem RateCall.answer_ofPair (h : call.answer rows = .ok (some value)) :
    OfPair rows call.base call.quote value := by
  rcases @answer_promised rows call with ⟨row, hrow, houtcome⟩ | ⟨-, houtcome⟩
  · rw [h] at houtcome
    cases hrate : toRate row with
    | error e => simp [hrate, Except.map] at houtcome
    | ok rate =>
      simp only [hrate, Except.map, Except.ok.injEq, Option.some.injEq] at houtcome
      exact ⟨row, hrow.mem, hrow.holds.1, hrow.holds.2.1, houtcome ▸ hrate⟩
  · rw [h] at houtcome
    cases houtcome

/-- **One call** keeps the entries sourced. -/
theorem Sourced.cacheAfter {l : RateLookup} (h : Sourced rows cache)
    (hcode : isCurrencyCode l.base = true) : Sourced rows (l.cacheAfter rows cache) := by
  unfold RateLookup.cacheAfter
  split
  · exact h
  unfold RateCall.cacheAfter
  split
  · rename_i value hanswer
    intro base quote entry hbase hentry
    unfold RateCall.store at hentry
    split at hentry
    · dsimp only at hentry
      split at hentry
      · rename_i hkey
        -- the entry that was set
        obtain ⟨rfl, rfl⟩ := cacheKey_inj hbase hcode hkey
        cases hentry
        exact RateCall.answer_ofPair hanswer
      · exact h base quote entry hbase hentry
    · exact h base quote entry hbase hentry
  · exact h

theorem sourced_cachedAfter {lookups : List RateLookup}
    (hcodes : ∀ l ∈ lookups, isCurrencyCode l.base = true) :
    Sourced rows (cachedAfter rows lookups) := by
  unfold cachedAfter
  have hfold : ∀ (lookups : List RateLookup) (cache : RateCache), Sourced rows cache →
      (∀ l ∈ lookups, isCurrencyCode l.base = true) →
      Sourced rows (lookups.foldl (fun cache l => l.cacheAfter rows cache) cache) := by
    intro lookups
    induction lookups with
    | nil => intro cache h _; exact h
    | cons l lookups ih =>
      intro cache h hcodes
      exact ih _ (h.cacheAfter (hcodes l List.mem_cons_self))
        fun k hk => hcodes k (List.mem_cons_of_mem _ hk)
  exact hfold lookups _ (fun _ _ _ _ hentry => by cases hentry) hcodes

/-! ## When a call is transparent -/

/-- Another rate of the pair took effect after the one an entry holds, and by
the instant that is asked about. -/
def Overtaken (rows : List FxRateRow) (call : RateCall) (value : FxRate) : Prop :=
  ∃ row ∈ rows, Effective call.base call.quote call.asOf row ∧ value.effectiveAt < row.effectiveAt

/-- A value that answers a call is an entry's, of a time not after the one
that is asked about. -/
theorem RateCall.hit_some (h : call.hit = some value) :
    ∃ entry, call.cached = some entry ∧ entry.value = value ∧ value.effectiveAt ≤ call.asOf := by
  unfold hit at h
  split at h
  · cases h
  · rename_i entry hentry
    split at h
    · rename_i hlive
      cases h
      exact ⟨entry, hentry, rfl, hlive.2⟩
    · cases h

theorem RateCall.toRate_effectiveAt {row : FxRateRow} (h : toRate row = .ok value) :
    value.effectiveAt = toDate row.effectiveAt := by
  unfold toRate at h
  split at h
  · cases h
  · cases h
    rfl

/-- **The rate cache is transparent** to a call, after any others, exactly
where the call is answered by the table, or by the rate of the newest row
that is effective. Of rows that take effect on a millisecond, that is where
no other rate has overtaken the one that answers. -/
theorem rate_cache_transparent_iff (hkeyed : OneRatePerInstant rows) {before : List RateLookup}
    {l : RateLookup} (hbefore : ∀ k ∈ before, isCurrencyCode k.base = true)
    (hcode : isCurrencyCode l.base = true) :
    let call := l.call (cachedAfter rows before)
    Promised rows l.base l.quote l.asOf (staticRateFor rows l.base l.quote l.asOf) ∧
    (call.outcome rows = staticRateFor rows l.base l.quote l.asOf ↔
      ∀ value, call.hit = some value → ∃ row,
        Latest (Effective l.base l.quote l.asOf) (·.effectiveAt) rows row ∧
          RateCall.toRate row = .ok value) ∧
    ((∀ row ∈ rows, toDate row.effectiveAt = row.effectiveAt) →
      (call.outcome rows = staticRateFor rows l.base l.quote l.asOf ↔
        ∀ value, call.hit = some value → ¬ Overtaken rows call value)) := by
  intro call
  have hstatic := @staticRateFor_promised rows l.base l.quote l.asOf
  have hexact : call.outcome rows = staticRateFor rows l.base l.quote l.asOf ↔
      ∀ value, call.hit = some value → ∃ row,
        Latest (Effective l.base l.quote l.asOf) (·.effectiveAt) rows row ∧
          RateCall.toRate row = .ok value := by
    unfold RateCall.outcome
    cases hhit : call.hit with
    | none =>
      have hanswer : call.answer rows = staticRateFor rows l.base l.quote l.asOf :=
        hkeyed.unique RateCall.answer_promised hstatic
      exact ⟨fun _ _ h => (nomatch h), fun _ => hanswer⟩
    | some value =>
      constructor
      · rintro hsame _ ⟨⟩
        dsimp only at hsame
        rcases hstatic with ⟨row, hrow, houtcome⟩ | ⟨-, houtcome⟩
        · rw [← hsame] at houtcome
          cases hrate : RateCall.toRate row with
          | error e => simp [hrate, Except.map] at houtcome
          | ok rate =>
            simp only [hrate, Except.map, Except.ok.injEq, Option.some.injEq] at houtcome
            exact ⟨row, hrow, houtcome ▸ hrate⟩
        · rw [← hsame] at houtcome
          cases houtcome
      · intro hnewest
        obtain ⟨row, hrow, hrate⟩ := hnewest value rfl
        refine hkeyed.unique (Or.inl ⟨row, hrow, ?_⟩) hstatic
        rw [hrate]
        rfl
  refine ⟨hstatic, hexact, fun hwhole => hexact.trans (forall₂_congr fun value hhit => ?_)⟩
  obtain ⟨entry, hcached, hvalue, hlive⟩ := RateCall.hit_some hhit
  constructor
  · rintro ⟨row, hrow, hrate⟩ ⟨other, hother, heffective, hlater⟩
    have htime := RateCall.toRate_effectiveAt hrate
    rw [hwhole row hrow.mem] at htime
    exact absurd (hrow.latest other hother heffective) (not_le.mpr (htime ▸ hlater))
  · intro hnot
    -- the entry's own row is the newest
    obtain ⟨row, hrow, hbase, hquote, hrate⟩ :=
      sourced_cachedAfter hbefore l.base l.quote entry hcode hcached
    rw [hvalue] at hrate
    have htime := RateCall.toRate_effectiveAt hrate
    rw [hwhole row hrow] at htime
    refine ⟨row, ⟨hrow, ⟨hbase, hquote, htime ▸ hlive⟩, fun other hother heffective => ?_⟩, hrate⟩
    by_contra hlater
    exact hnot ⟨other, hother, heffective, htime ▸ not_le.mp hlater⟩

end InvoiceReservation

namespace InvoiceReservation

/-- Two rates of euros, the second half a minute after the first. -/
def euroRates : List FxRateRow :=
  [⟨"EUR", "USD", 0, "1.0850000000", "seed"⟩, ⟨"EUR", "USD", 30000000, "1.2000000000", "seed"⟩]

/-- A call ten seconds in, and one at forty. -/
def euroLookup (seconds : Int) : RateLookup :=
  ⟨"EUR", "USD", seconds * 1000000, seconds * 1000000⟩

/-- The first call keeps the first rate for a minute, and the second is
answered with it, ten seconds after the second rate took effect. -/
theorem rate_cache_serves_overtaken :
    (((euroLookup 40).call (cachedAfter euroRates [euroLookup 10])).outcome euroRates).map
        (·.map (·.rate)) = .ok (some "1.0850000000") ∧
      (staticRateFor euroRates "EUR" "USD" 40000000).map (·.map (·.rate)) =
        .ok (some "1.2000000000") ∧
      ¬ ((euroLookup 40).call (cachedAfter euroRates [euroLookup 10])).outcome euroRates =
        staticRateFor euroRates "EUR" "USD" 40000000 := by
  have hcached : (((euroLookup 40).call (cachedAfter euroRates [euroLookup 10])).outcome
      euroRates).map (·.map (·.rate)) = .ok (some "1.0850000000") := by decide +kernel
  have hstatic : (staticRateFor euroRates "EUR" "USD" 40000000).map (·.map (·.rate)) =
      .ok (some "1.2000000000") := by decide +kernel
  refine ⟨hcached, hstatic, fun hsame => ?_⟩
  rw [hsame, hstatic] at hcached
  revert hcached
  decide

theorem rate_cache_transparent_iff_euroRates :
    ¬ ((euroLookup 40).call (cachedAfter euroRates [euroLookup 10])).outcome euroRates =
      staticRateFor euroRates "EUR" "USD" 40000000 := by
  have hkeyed : OneRatePerInstant euroRates := by unfold OneRatePerInstant; decide
  have hbefore : ∀ k ∈ [euroLookup 10], isCurrencyCode k.base = true := by decide
  obtain ⟨-, -, hwhole⟩ :=
    @rate_cache_transparent_iff _ hkeyed _ (euroLookup 40) hbefore (by decide)
  intro hsame
  have hhit : (((euroLookup 40).call (cachedAfter euroRates [euroLookup 10])).hit).map
      (·.effectiveAt) = some 0 := by decide +kernel
  obtain ⟨value, hvalue, htime⟩ := Option.map_eq_some_iff.mp hhit
  refine (hwhole (by decide)).mp hsame value hvalue
    ⟨⟨"EUR", "USD", 30000000, "1.2000000000", "seed"⟩, by decide, ⟨rfl, rfl, by decide⟩, ?_⟩
  rw [htime]
  decide

end InvoiceReservation
