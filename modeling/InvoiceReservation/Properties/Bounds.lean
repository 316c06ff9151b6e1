import InvoiceReservation.Properties.Ledger
import Mathlib.Data.List.Nodup
/-!
# A position stays in its bounds

Every component of a program is between zero and the end of a `bigint` in
every state of every run. With a ledger that explains the position, an
advance can be persisted exactly when it stays there.
-/

namespace InvoiceReservation

open Transactions

variable {db db' : Db} {p : Uuid} {program : ProgramEntity} {flag : Bool}
variable {position : ProgramPosition} {entries : List PendingLedgerEntry} {now : Timestamp}

/-- Every component of a position is one the database holds. -/
def ProgramPosition.InBounds (position : ProgramPosition) : Prop :=
  ∀ c, 0 ≤ position.component c ∧ position.component c ≤ bigintMax

/-- **A program whose ledger explains its position, within its bounds.** -/
structure Standing (p : Uuid) (db : Db) : Prop where
  explained : Explained p db
  inBounds : ∀ program, db.program? p = some program → program.toProgramPosition.InBounds

theorem inBigint_iff {n : Int} : inBigint n = true ↔ bigintMin ≤ n ∧ n ≤ bigintMax := by
  simp [inBigint]

/-- The bounds are told by the cached columns. -/
theorem ProgramPosition.InBounds.congr {x y : ProgramPosition} (h : x.InBounds)
    (he : y.cached = x.cached) : y.InBounds := by
  intro c
  rw [← cached_component, he, cached_component]
  exact h c

/-! ## Advances -/

theorem Persistable.inBounds {result : AdvanceResult} (h : Persistable db program result flag) :
    result.program.InBounds := by
  intro c
  cases c with
  | «local» => exact ⟨h.localSign, (inBigint_iff.mp h.localRange).2⟩
  | treasury => exact ⟨h.treasurySign, (inBigint_iff.mp h.treasuryRange).2⟩
  | limit => exact ⟨h.limitSign, (inBigint_iff.mp h.limitRange).2⟩

/-- Two positions in bounds are a delta apart that fits a `bigint`. -/
theorem inBigint_sub {x y : Int} (hx : 0 ≤ x ∧ x ≤ bigintMax) (hy : 0 ≤ y ∧ y ≤ bigintMax) :
    inBigint (y - x) = true := by
  rw [inBigint_iff]
  simp only [bigintMin, bigintMax] at *
  omega

/-- The sequences an advance hands out are new to a ledger that explains
its position. -/
theorem Explains.fresh (h : Explains (db.ledgerOf program.id) program.toProgramPosition) :
    ∀ entry ∈ (advancePosition program.toProgramPosition entries now).entries,
      ∀ row ∈ db.ledgerOf program.id, row.sequence ≠ entry.sequence := by
  intro entry hentry row hrow he
  have hsequence := List.mem_map_of_mem (f := (·.sequence)) hentry
  rw [advances_advancePosition.sequences] at hsequence
  obtain ⟨i, -, hi⟩ := List.mem_map.mp hsequence
  have hold := List.mem_map_of_mem (f := (·.sequence)) hrow
  rw [h.sequences] at hold
  obtain ⟨j, hj, hj'⟩ := List.mem_map.mp hold
  rw [List.mem_range] at hj
  rw [h.next] at hi
  omega

theorem nodup_sequences :
    ((advancePosition position entries now).entries.map (·.sequence)).Nodup := by
  rw [advances_advancePosition.sequences]
  refine List.Nodup.map (fun i j hij => ?_) List.nodup_range
  omega

/-- The marker carries no text but that of the last entry. -/
theorem texts_of_mem_markers {marker : PendingLedgerEntry} (h : marker ∈ markers position entries)
    (htexts : ∀ entry ∈ entries, ∀ c ∈ entry.texts, c.1 = true) :
    ∀ c ∈ marker.texts, c.1 = true := by
  obtain ⟨cause, -, rfl⟩ := of_mem_markers h
  have hclosing : storableText (closingCorrelationId entries) = true := by
    unfold closingCorrelationId
    cases hlast : entries.getLast? with
    | none => decide
    | some entry =>
      exact htexts entry (List.mem_of_getLast? hlast) _ (List.mem_cons_of_mem _ List.mem_cons_self)
  simpa [PendingLedgerEntry.texts, overLimitMarker, Constraint.text] using
    And.intro (by decide : storableText "" = true) hclosing

/-- **An advance of an explained position can be persisted** if its texts and
its deltas fit, it ends in bounds, and LOCAL does not grow beyond the limit. -/
theorem Explains.persistable_iff (h : Explains (db.ledgerOf program.id) program.toProgramPosition) :
    Persistable db program (advancePosition program.toProgramPosition entries now) flag ↔
      (∀ entry ∈ entries, (∀ c ∈ entry.texts, c.1 = true) ∧ inBigint entry.deltaMinor = true) ∧
      (advancePosition program.toProgramPosition entries now).program.InBounds ∧
      ((advancePosition program.toProgramPosition entries now).program.localReservedMinor >
          program.localReservedMinor → flag = true ∨
        (advancePosition program.toProgramPosition entries now).program.localReservedMinor ≤
          (advancePosition program.toProgramPosition entries now).program.creditLimitMinor) := by
  have hentries := @advancePosition_entries program.toProgramPosition entries now
  constructor
  · intro hp
    refine ⟨fun entry hentry => ?_, hp.inBounds, hp.trigger⟩
    have hmem := List.mem_append_left (markers program.toProgramPosition entries) hentry
    rw [← hentries] at hmem
    obtain ⟨sequenced, hs, rfl⟩ := List.mem_map.mp hmem
    exact ⟨hp.texts sequenced hs, hp.deltas sequenced hs⟩
  · rintro ⟨hentry, hbounds, htrigger⟩
    have hrange : ∀ c, inBigint
        ((advancePosition program.toProgramPosition entries now).program.component c) = true :=
      fun c => inBigint_iff.mpr
        ⟨le_trans (by simp [bigintMin]) (hbounds c).1, (hbounds c).2⟩
    have hsent : ∀ sequenced ∈ (advancePosition program.toProgramPosition entries now).entries,
        (∀ c ∈ sequenced.texts, c.1 = true) ∧ inBigint sequenced.deltaMinor = true := by
      intro sequenced hs
      have hmem := List.mem_map_of_mem (f := (·.toPendingLedgerEntry)) hs
      rw [hentries, List.mem_append] at hmem
      rcases hmem with hasked | hmarker
      · exact hentry _ hasked
      · refine ⟨texts_of_mem_markers hmarker fun entry h => (hentry entry h).1, ?_⟩
        obtain ⟨cause, -, he⟩ := of_mem_markers hmarker
        rw [he]
        rfl
    exact ⟨fun sequenced hs => (hsent sequenced hs).1, fun sequenced hs => (hsent sequenced hs).2,
      nodup_sequences, h.fresh, hrange .limit, hrange .local, hrange .treasury, htrigger,
      (hbounds .limit).1, (hbounds .local).1, (hbounds .treasury).1⟩

/-! ## Runs -/

theorem Fresh.standing (h : Fresh p db) : Standing p db := by
  refine ⟨h.explained, fun program hp => ?_⟩
  obtain ⟨hl, ht, hc, -⟩ := h.zero program hp
  intro c
  cases c <;> simp [ProgramPosition.component, hl, ht, hc, bigintMax]

theorem Still.standing (h : Still p db db') (hs : Standing p db) : Standing p db' := by
  have hinBounds := h.tells (E := fun _ position => position.InBounds)
    (fun _ _ _ hcached hb => hb.congr hcached) hs.inBounds
  exact ⟨h.explained hs.explained, hinBounds⟩

theorem Advanced.standing (h : Advanced db db' program entries now) (hs : Standing program.id db) :
    Standing program.id db' := by
  refine ⟨h.explained hs.explained, fun program' hp => ?_⟩
  have hafter := h.after
  rw [hp, Option.map_some, Option.some.injEq] at hafter
  obtain ⟨flag, hpersist⟩ := h.persistable
  exact hpersist.inBounds.congr hafter

variable [Sha256]

/-- **One change.** -/
theorem Change.standing (h : Change db db') (hs : Standing p db) : Standing p db' := by
  rcases h.position p with hstill | ⟨_, _, _, rfl, ha, -⟩
  · exact hstill.standing hs
  · exact ha.standing hs

/-- **Every run.** -/
theorem Standing.run (h : Standing p db) (ops : List Operation) :
    Standing p (Operation.run ops db) :=
  run_induct (fun _ _ hc hs => hs.standing hc) ops h

/-- **A position stays in its bounds**, after any run over a program that
started fresh. -/
theorem position_inBounds (hfresh : Fresh p db) (ops : List Operation)
    (hp : (Operation.run ops db).program? p = some program) :
    program.toProgramPosition.InBounds :=
  (hfresh.standing.run ops).inBounds program hp

end InvoiceReservation
