import Mathlib.Data.List.Sort
/-!
# Paging by key

A list is read newest first, a page at a time. Each page is a read of its
own, of the list as it stands then; it asks for one row more than it holds,
and names the key of its last row as the cursor of the next page where that
row is there. Over a list that is only ever added to behind its newest row,
following the cursors gives what the first read found, each row once.
-/

namespace Paging

variable {α β ι κ ε : Type*}

/-- A page, and the cursor of the next one. -/
structure Page (κ α : Type*) where
  nextCursor : Option κ
  items : List α
  deriving DecidableEq, Repr

/-- The page of the rows that were found, of which one more was asked for
than it holds. -/
def page (limit : ℕ) (cursor : α → κ) (body : α → β) (rows : List α) : Page κ β :=
  let hasMore := limit < rows.length
  let page := if hasMore then rows.take limit else rows
  ⟨if hasMore then page.getLast?.map cursor else none, page.map body⟩

/-- A page that names another ends with a row, and names that one's cursor. -/
theorem page_next {limit : ℕ} {cursor : α → κ} {body : α → β} {rows : List α} {next : κ}
    {items : List β} (h : page limit cursor body rows = ⟨some next, items⟩) :
    ∃ last ∈ rows, next = cursor last ∧ items.getLast? = some (body last) := by
  unfold page at h
  dsimp only at h
  by_cases hmore : limit < rows.length
  · rw [if_pos hmore, if_pos hmore, Page.mk.injEq] at h
    obtain ⟨hnext, rfl⟩ := h
    obtain ⟨last, hlast, rfl⟩ := Option.map_eq_some_iff.mp hnext
    refine ⟨last, List.mem_of_mem_take (List.mem_of_getLast? hlast), rfl, ?_⟩
    rw [List.getLast?_map, hlast, Option.map_some]
  · rw [if_neg hmore, Page.mk.injEq] at h
    exact absurd h.1 (by simp)

/-- The page of all rows there are, one more than it holds being asked for. -/
theorem page_take {limit : ℕ} {cursor : α → κ} {body : α → β} {rows : List α} (hlimit : 1 ≤ limit) :
    (page limit cursor body (rows.take (limit + 1))).items = (rows.take limit).map body ∧
      ((page limit cursor body (rows.take (limit + 1))).nextCursor.isSome = true ↔
        limit < rows.length) := by
  have hmore : limit < (rows.take (limit + 1)).length ↔ limit < rows.length := by
    rw [List.length_take]
    omega
  have htake : (rows.take (limit + 1)).take limit = rows.take limit := by
    rw [List.take_take, min_eq_left (by omega)]
  unfold page
  dsimp only
  by_cases h : limit < rows.length
  · have hne : rows.take limit ≠ [] := by
      intro hnil
      have hlength := congrArg List.length hnil
      rw [List.length_take, List.length_nil] at hlength
      omega
    rw [if_pos (hmore.mpr h), if_pos (hmore.mpr h), htake]
    simp [h, hne]
  · have hall : rows.take (limit + 1) = rows.take limit := by
      rw [List.take_of_length_le (by omega), List.take_of_length_le (by omega)]
    rw [if_neg (fun h' => h (hmore.mp h')), if_neg (fun h' => h (hmore.mp h')), hall]
    simp [h]

/-- **Following the cursors**, from the `k`-th read on, to a page that names
none. -/
inductive Follows (read : ℕ → Option κ → Except ε (Page κ β)) : ℕ → Option κ → List β → Prop
  /-- The page is the last one. -/
  | last {k : ℕ} {cursor : Option κ} {items : List β} :
      read k cursor = .ok ⟨none, items⟩ → Follows read k cursor items
  /-- The page names another, and that is read next. -/
  | more {k : ℕ} {cursor : Option κ} {next : κ} {items rest : List β} :
      read k cursor = .ok ⟨some next, items⟩ → Follows read (k + 1) (some next) rest →
      Follows read k cursor (items ++ rest)

/-- There is one way to follow the cursors. -/
theorem Follows.unique {read : ℕ → Option κ → Except ε (Page κ β)} {k : ℕ} {cursor : Option κ}
    {xs ys : List β} (hx : Follows read k cursor xs) (hy : Follows read k cursor ys) : xs = ys := by
  induction hx generalizing ys with
  | last hread =>
    cases hy with
    | last hread' => simpa [hread] using hread'
    | more hread' => simp [hread] at hread'
  | more hread hrest ih =>
    cases hy with
    | last hread' => simp [hread] at hread'
    | more hread' hrest' =>
      rw [hread, Except.ok.injEq, Page.mk.injEq, Option.some.injEq] at hread'
      obtain ⟨rfl, rfl⟩ := hread'
      rw [ih hrest']

/-! ## The rows of a page -/

variable [LinearOrder ι] {key : α → ι} {rows : List α}

/-- Whether a row lies below a cursor. -/
def isBelow (key : α → ι) (cursor : Option ι) (row : α) : Bool :=
  cursor.all fun c => key row < c

/-- `ORDER BY key DESC`. -/
def descending (key : α → ι) (rows : List α) : List α :=
  rows.mergeSort fun x y => key y ≤ key x

theorem descending_perm : (descending key rows).Perm rows := List.mergeSort_perm _ _

theorem descending_sorted : (descending key rows).Pairwise fun x y => key y ≤ key x := by
  have hsorts := @List.pairwise_mergeSort α (fun x y => decide (key y ≤ key x))
    (by simpa using fun x y z hxy hyz => le_trans hyz hxy)
    (by simpa using fun x y => le_total (key y) (key x)) rows
  simpa [descending] using hsorts

/-- **There is one descending order** of rows with keys of their own. -/
theorem descending_unique {ordered : List α} (hkeys : (rows.map key).Nodup)
    (hperm : ordered.Perm rows) (hordered : ordered.Pairwise fun x y => key y ≤ key x) :
    descending key rows = ordered := by
  refine List.Perm.eq_of_pairwise (fun x y hx hy hxy hyx => ?_) descending_sorted hordered
    (descending_perm.trans hperm.symm)
  exact List.inj_on_of_nodup_map hkeys (descending_perm.mem_iff.mp hx) (hperm.mem_iff.mp hy)
    (le_antisymm hyx hxy)

/-- In descending order, ascending rows are reversed. -/
theorem descending_eq_reverse (h : rows.Pairwise (key · < key ·)) :
    descending key rows = rows.reverse :=
  descending_unique (List.pairwise_map.mpr (h.imp ne_of_lt)) rows.reverse_perm
    (List.pairwise_reverse.mpr (h.imp le_of_lt))

/-- Rows with keys of their own descend strictly. -/
theorem descending_descends (hkeys : (rows.map key).Nodup) :
    (descending key rows).Pairwise fun x y => key y < key x := by
  have hnodup : ((descending key rows).map key).Nodup :=
    (descending_perm.map key).nodup_iff.mpr hkeys
  refine (descending_sorted.and (List.pairwise_map.mp hnodup)).imp fun h => ?_
  exact lt_of_le_of_ne h.1 h.2.symm

/-- The rows below a cursor, the newest first. -/
def below (key : α → ι) (cursor : Option ι) (rows : List α) : List α :=
  (rows.filter (isBelow key cursor)).reverse

@[simp] theorem below_none : below key none rows = rows.reverse := by
  simp [below, isBelow]

theorem mem_below {cursor : Option ι} {row : α} :
    row ∈ below key cursor rows ↔ row ∈ rows ∧ ∀ c ∈ cursor, key row < c := by
  cases cursor <;> simp [below, isBelow]

/-- What is below a cursor descends. -/
theorem below_descends (h : rows.Pairwise (key · < key ·)) (cursor : Option ι) :
    (below key cursor rows).Pairwise fun x y => key y < key x :=
  List.pairwise_reverse.mpr (h.filter _)

/-- The rows of a page that a statement finds. -/
def select (key : α → ι) (cursor : Option ι) (limit : ℕ) (rows : List α) : List α :=
  (descending key (rows.filter (isBelow key cursor))).take (limit + 1)

theorem select_eq (h : rows.Pairwise (key · < key ·)) (cursor : Option ι) (limit : ℕ) :
    select key cursor limit rows = (below key cursor rows).take (limit + 1) := by
  rw [select, descending_eq_reverse (h.filter _), below]

/-! ## The rest of a list -/

/-- What is below a row's key is what comes behind the row. -/
theorem below_split (h : rows.Pairwise (key · < key ·)) {cursor : Option ι} {xs ys : List α}
    {last : α} (hsplit : below key cursor rows = xs ++ last :: ys) :
    below key (some (key last)) rows = ys := by
  have hlast : ∀ c ∈ cursor, key last < c :=
    (mem_below.mp (hsplit ▸ List.mem_append_right xs List.mem_cons_self)).2
  have hdescends : (xs ++ last :: ys).Pairwise fun x y => key y < key x :=
    hsplit ▸ below_descends h cursor
  obtain ⟨-, hys, hxs⟩ := List.pairwise_append.mp hdescends
  have hbelow : below key (some (key last)) rows =
      (below key cursor rows).filter (isBelow key (some (key last))) := by
    rw [below, below, List.filter_reverse, List.filter_filter]
    congr 1
    refine List.filter_congr fun row _ => ?_
    have himp : key row < key last → ∀ c ∈ cursor, key row < c :=
      fun hlt c hc => hlt.trans (hlast c hc)
    cases cursor with
    | none => simp [isBelow]
    | some c => simpa [isBelow] using fun hlt => himp hlt c rfl
  rw [hbelow, hsplit, List.filter_append, List.filter_eq_nil_iff.mpr, List.nil_append,
    List.filter_cons_of_neg, List.filter_eq_self.mpr]
  · intro y hy
    simpa [isBelow] using (List.pairwise_cons.mp hys).1 y hy
  · simp [isBelow]
  · intro x hx
    simpa [isBelow] using (hxs x hx last List.mem_cons_self).le

/-- A list that is added to behind its newest row keeps what is below it. -/
theorem below_append {more : List α} (h : (rows ++ more).Pairwise (key · < key ·)) {row : α}
    (hrow : row ∈ rows) :
    below key (some (key row)) (rows ++ more) = below key (some (key row)) rows := by
  have hnone : more.filter (isBelow key (some (key row))) = [] := by
    refine List.filter_eq_nil_iff.mpr fun x hx => ?_
    have hlt := (List.pairwise_append.mp h).2.2 row hrow x hx
    simpa [isBelow] using hlt.le
  rw [below, List.filter_append, hnone, List.append_nil, below]

/-! ## Following the cursors of a growing list -/

/-- A list that is only added to, behind its newest row, from one read to
the next. -/
structure Growing (key : α → ι) (log : ℕ → List α) : Prop where
  grows : ∀ k, log k <+: log (k + 1)
  ascending : ∀ k, (log k).Pairwise (key · < key ·)

/-- A read that answers, to every cursor that is the key of a row that can
be told, with the page below it. -/
def Pages (Told : α → Prop) (key : α → ι) (encode : ι → κ) (body : α → β) (limit : ℕ → ℕ)
    (log : ℕ → List α) (read : ℕ → Option κ → Except ε (Page κ β)) : Prop :=
  ∀ k (cursor : Option ι), (∀ c ∈ cursor, ∃ row ∈ log k, Told row ∧ key row = c) →
    read k (cursor.map encode) =
      .ok (page (limit k) (encode ∘ key) body (select key cursor (limit k) (log k)))

variable {log : ℕ → List α} {limit : ℕ → ℕ} {encode : ι → κ} {body : α → β}
variable {read : ℕ → Option κ → Except ε (Page κ β)}

/-- **One page.** The last page holds all that is below the cursor; any
other holds the first of it, and the rest of it is below the next cursor,
also at the next read. -/
theorem page_cases (h : Growing key log) {k : ℕ} (hlimit : 1 ≤ limit k) (cursor : Option ι) :
    (page (limit k) (encode ∘ key) body (select key cursor (limit k) (log k)) =
      ⟨none, (below key cursor (log k)).map body⟩) ∨
    ∃ xs last, last ∈ log k ∧
      page (limit k) (encode ∘ key) body (select key cursor (limit k) (log k)) =
        ⟨some (encode (key last)), (xs ++ [last]).map body⟩ ∧
      below key cursor (log k) =
        (xs ++ [last]) ++ below key (some (key last)) (log (k + 1)) := by
  rw [select_eq (h.ascending k)]
  by_cases hmore : limit k < (below key cursor (log k)).length
  · -- the row behind the page is there
    obtain ⟨xs, last, hpage⟩ := List.eq_nil_or_concat'
      ((below key cursor (log k)).take (limit k)) |>.resolve_left (by
        intro hnil
        have hlength := congrArg List.length hnil
        rw [List.length_take, List.length_nil] at hlength
        omega)
    have hsplit : below key cursor (log k) =
        xs ++ last :: (below key cursor (log k)).drop (limit k) := by
      conv_lhs => rw [← List.take_append_drop (limit k) (below key cursor (log k)), hpage]
      simp
    have hmem : last ∈ log k :=
      (mem_below.mp (hsplit ▸ List.mem_append_right xs List.mem_cons_self)).1
    obtain ⟨more, hlog⟩ := h.grows k
    have hnext : below key (some (key last)) (log (k + 1)) =
        (below key cursor (log k)).drop (limit k) := by
      rw [← hlog, below_append (hlog ▸ h.ascending (k + 1)) hmem]
      exact below_split (h.ascending k) hsplit
    refine Or.inr ⟨xs, last, hmem, ?_, ?_⟩
    · have hfound : limit k < ((below key cursor (log k)).take (limit k + 1)).length := by
        rw [List.length_take]
        omega
      rw [page, if_pos hfound, if_pos hfound, List.take_take, min_eq_left (by omega), hpage]
      simp
    · rw [hnext, List.append_assoc]
      exact hsplit
  · have hfound : (below key cursor (log k)).take (limit k + 1) = below key cursor (log k) :=
      List.take_of_length_le (by omega)
    rw [page, hfound, if_neg hmore, if_neg hmore]
    exact Or.inl rfl

/-- **Following the cursors gives what the first read found.** -/
theorem follows_iff (h : Growing key log) (hlimit : ∀ k, 1 ≤ limit k) {Told : α → Prop}
    (hread : Pages Told key encode body limit log read) {k : ℕ} {cursor : Option ι}
    (hcursor : ∀ c ∈ cursor, ∃ row ∈ log k, Told row ∧ key row = c)
    (htold : ∀ row ∈ below key cursor (log k), Told row) {items : List β} :
    Follows read k (cursor.map encode) items ↔ items = (below key cursor (log k)).map body := by
  have hfollows : Follows read k (cursor.map encode) ((below key cursor (log k)).map body) := by
    -- on what is left below the cursor, which each page but the last shortens
    induction hlength : (below key cursor (log k)).length using Nat.strong_induction_on
      generalizing k cursor with
    | _ n ih =>
      have hpage := hread k cursor hcursor
      obtain hlast | ⟨xs, last, hmem, hmore, hrest⟩ :=
        @page_cases _ _ _ _ _ key log limit encode body h k (hlimit k) cursor
      · exact .last (hpage.trans (congrArg _ hlast))
      · rw [hrest] at htold
        rw [hrest, List.map_append]
        refine .more (hpage.trans (congrArg _ hmore)) ?_
        have hnext : ∀ c ∈ some (key last), ∃ row ∈ log (k + 1), Told row ∧ key row = c := by
          rintro c ⟨⟩
          exact ⟨last, (h.grows k).subset hmem, htold last (by simp), rfl⟩
        refine ih _ ?_ hnext (fun row hrow => htold row (List.mem_append_right _ hrow)) rfl
        rw [← hlength, hrest, List.length_append, List.length_append, List.length_singleton]
        omega
  exact ⟨fun hitems => hitems.unique hfollows, fun hitems => hitems ▸ hfollows⟩

/-! ## Following the cursors of a fixed list -/

/-- What a statement finds does not depend on the order the rows lie in. -/
theorem select_congr {ordered : List α} (hkeys : (rows.map key).Nodup) (hperm : ordered.Perm rows)
    (cursor : Option ι) (limit : ℕ) :
    select key cursor limit rows = select key cursor limit ordered := by
  have hkeys' : ((rows.filter (isBelow key cursor)).map key).Nodup :=
    hkeys.sublist (List.filter_sublist.map key)
  rw [select, select, descending_unique hkeys' (descending_perm.trans (hperm.filter _))
    descending_sorted]

/-- **Following the cursors of a fixed list gives all of it**, each row once,
in descending order. -/
theorem follows_fixed_iff (hkeys : (rows.map key).Nodup) (hlimit : ∀ k, 1 ≤ limit k)
    {Told : α → Prop} (hread : Pages Told key encode body limit (fun _ => rows) read)
    (htold : ∀ row ∈ rows, Told row) {items : List β} :
    Follows read 0 none items ↔ items = (descending key rows).map body := by
  -- the rows, put in ascending order, are a list that never grows
  have hperm : (descending key rows).reverse.Perm rows :=
    (List.reverse_perm _).trans descending_perm
  have hgrowing : Growing key fun _ => (descending key rows).reverse :=
    ⟨fun _ => List.prefix_refl _, fun _ => List.pairwise_reverse.mpr (descending_descends hkeys)⟩
  have hpages : Pages Told key encode body limit (fun _ => (descending key rows).reverse) read := by
    intro k cursor hcursor
    rw [← select_congr hkeys hperm]
    refine hread k cursor fun c hc => ?_
    obtain ⟨row, hrow, hkey⟩ := hcursor c hc
    exact ⟨row, hperm.mem_iff.mp hrow, hkey⟩
  have htold' : ∀ row ∈ below key none (descending key rows).reverse, Told row := by
    simpa using fun row hrow => htold row (descending_perm.mem_iff.mp hrow)
  have hiff : Follows read 0 ((none : Option ι).map encode) items ↔
      items = (below key none (descending key rows).reverse).map body :=
    follows_iff hgrowing hlimit hpages (by simp) htold'
  simpa using hiff

end Paging
