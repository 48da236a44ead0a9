import UnitLedger.Proofs.Memory.Constraints
import UnitLedger.Proofs.Transactions.Origins

/-!
  UnitLedger.Proofs.Transactions.Constraints — the store's constraints, whatever transactions do.

  From an empty store on, through any transactions with any operations, commits that go through or are
  refused, rollbacks and resets in any order:
  - `committed_rows_consistent`: names, active owners and idempotency keys are unique, funds and entries
    are found under their ids, and what belongs to a fund belongs to one that is there.
  - `unchecked_rows`: recorded transfers have units and two owners. Funds have units and entries no
    debts as far as the transactions see to it themselves: a fund without units was created so, and an
    owner in debt was put there by a commit with a credit of negative units.

  The second is less than what new entries and debits are checked for, and `indebted` is a run that ends
  in a debt.
-/

namespace UnitLedger.Transactions

open Memory (Party Tables)

variable {acts : List Act} {fresh : Nat → Uuid}

/-! ## Rows among each other -/

theorem consistent_run (fresh : Nat → Uuid) (acts : List Act) :
    ((State.opened fresh {}).run acts).world.tables.Consistent := by
  refine State.run_history (P := fun _ s => s.world.tables.Consistent) Tables.consistent_empty ?_ acts
  intro acts a s' ok hstep
  rcases hstep.tables with h | ⟨p, now, -, h, -⟩ | ⟨-, h⟩ <;> rw [h]
  · exact ok
  · exact ok.commit _ _ _
  · exact Tables.consistent_empty

/-- Transactions and resets lead from an empty store to these committed rows. -/
def Reached (t : Tables) : Prop :=
  ∃ fresh acts, ((State.opened fresh {}).run acts).world.tables = t

theorem Reached.consistent {t : Tables} (h : Reached t) : t.Consistent := by
  obtain ⟨fresh, acts, rfl⟩ := h
  exact consistent_run fresh acts

/-- In every state of every run: fund names are distinct, an owner has at most one active entry in a
fund, idempotency keys are distinct, funds and entries are found under their own ids and no others, and
the fund of every entry and of every transfer exists. -/
theorem committed_rows_consistent (fresh : Nat → Uuid) (acts : List Act) :
    let t := ((State.opened fresh {}).run acts).world.tables
    (t.funds.map (·.name)).Nodup ∧
      ((t.entries.filter (·.isActive)).map fun e => (e.fund, e.owner)).Nodup ∧
      (t.transfers.filterMap (·.key)).Nodup ∧
      ((t.funds.map (·.id)).Nodup ∧ ∀ id f, t.findFund id = some f ↔ f ∈ t.funds ∧ f.id = id) ∧
      (t.entryIds.Nodup ∧ ∀ id e, t.entryById id = some e ↔ e ∈ t.entries ∧ e.id = id) ∧
      (∀ e ∈ t.entries, ∃ f ∈ t.funds, f.id = e.fund) ∧
      ∀ r ∈ t.transfers, ∃ f ∈ t.funds, f.id = r.fund := by
  intro t
  have ok : t.Consistent := consistent_run fresh acts
  refine ⟨ok.fundNames, ok.holders, ok.keys, ⟨ok.fundIds, fun id f => ok.findFund_eq_some⟩,
    ⟨ok.keyed.ids, fun id e => ok.keyed.entryById_eq_some⟩, ?_, ?_⟩
  · exact fun e he => Tables.hasFund_iff.mp (ok.entryFunds e he)
  · exact fun r hr => Tables.hasFund_iff.mp (ok.transferFunds r hr)

/-! ## Rows by themselves -/

/-- A recorded transfer has passed its checks. -/
theorem transfer_checked {r : Transfer}
    (hr : r ∈ ((State.opened fresh {}).run acts).world.tables.transfers) :
    0 < r.units ∧ r.source ≠ r.target := by
  have hempty : ¬ r ∈ ({} : Tables).transfers := List.not_mem_nil
  obtain ⟨before, p, now, -, -, hnew, hr⟩ := State.becomes (P := (r ∈ ·.transfers)) hempty hr
  exact (Tables.mem_transfers_commit (consistent_run fresh before).keyed hr).resolve_left hnew

/-- Every committed fund was brought in by a commit of the run. -/
theorem fund_brought {f : Fund} (hf : f ∈ ((State.opened fresh {}).run acts).world.tables.funds) :
    ∃ before p now, Brings (State.opened fresh {}) acts before p now (.fund f) := by
  have hempty : ¬ f ∈ ({} : Tables).funds := List.not_mem_nil
  obtain ⟨before, p, now, place, allowed, hnew, hf⟩ := State.becomes (P := (f ∈ ·.funds)) hempty hf
  obtain ⟨done, mem⟩ :=
    (Tables.mem_funds_commit (consistent_run fresh before).keyed hf).resolve_left hnew
  exact ⟨before, p, now, place, State.commits_of_ok allowed done, mem⟩

structure Indebts (fresh : Nat → Uuid) (acts before : List Act) (p : Party) (now : Instant)
    (fund : Uuid) (owner : String) (units : Int) : Prop where
  brings : Brings (State.opened fresh {}) acts before p now (.credit fund owner units)
  negative : units < 0
  solvent : ¬ ((State.opened fresh {}).run before).world.tables.InDebt fund owner
  debt : (((State.opened fresh {}).run before).committed p now).InDebt fund owner

/-- Every owner in debt was put there by a commit of the run. -/
theorem debt_brought {fund : Uuid} {owner : String}
    (hdebt : ((State.opened fresh {}).run acts).world.tables.InDebt fund owner) :
    ∃ before p now units, Indebts fresh acts before p now fund owner units := by
  have hempty : ¬ ({} : Tables).InDebt fund owner := by
    rintro ⟨e, he, -⟩
    cases he
  obtain ⟨before, p, now, place, allowed, hnew, hdebt⟩ :=
    State.becomes (P := (·.InDebt fund owner)) hempty hdebt
  obtain ⟨done, units, negative, mem⟩ :=
    (Tables.commit_debt (consistent_run fresh before).keyed hdebt).resolve_left hnew
  exact ⟨before, p, now, units, ⟨place, State.commits_of_ok allowed done, mem⟩, negative, hnew, hdebt⟩

/-- All states of a run pass the checks exactly if no commit brings in what they forbid. -/
theorem checked_run_iff (fresh : Nat → Uuid) (acts : List Act) :
    (∀ part, part <+: acts → ((State.opened fresh {}).run part).world.tables.Checked) ↔
      (∀ before p now f, Brings (State.opened fresh {}) acts before p now (.fund f) →
        0 < f.totalUnits) ∧
        ∀ before p now fund owner units, ¬ Indebts fresh acts before p now fund owner units := by
  constructor
  · -- The state after such a commit does not pass the checks.
    intro hchecked
    refine ⟨fun before p now f h => ?_, fun before p now fund owner units h => ?_⟩
    · have hfunds := (hchecked _ h.place).funds
      rw [h.tables] at hfunds
      exact hfunds f (Tables.mem_funds_of_commit h.mem (State.commit_of_commits h.goes))
    · obtain ⟨e, he, -, -, hnegative⟩ := h.debt
      have hentries := (hchecked _ h.brings.place).entries
      rw [h.brings.tables] at hentries
      exact absurd hnegative (Int.not_lt.mpr (hentries e he))
  · rintro ⟨hfunds, hdebts⟩ part hpart
    refine ⟨fun f hf => ?_, fun e he => ?_, fun r hr => transfer_checked hr⟩
    · obtain ⟨before, p, now, hbrings⟩ := fund_brought hf
      exact hfunds before p now f (hbrings.mono hpart)
    · by_contra hnegative
      have hdebt : ((State.opened fresh {}).run part).world.tables.InDebt e.fund e.owner :=
        ⟨e, he, rfl, rfl, Int.not_le.mp hnegative⟩
      obtain ⟨before, p, now, units, h⟩ := debt_brought hdebt
      exact hdebts before p now e.fund e.owner units ⟨h.brings.mono hpart, h.negative, h.solvent, h.debt⟩

/-- What a run's rows meet of the checks on one row. Recorded transfers meet them. Every fund is one
that a transaction has created and committed, with the units that it asked for. An owner in debt was
put there by a commit that credits the owner negative units, as its transaction had asked for. So all
states of a run pass the checks exactly if no commit that goes through creates a fund without units or
puts an owner in debt by a negative credit. -/
theorem unchecked_rows (fresh : Nat → Uuid) (acts : List Act) :
    let s := State.opened fresh {}
    let t := (s.run acts).world.tables
    (∀ r ∈ t.transfers, 0 < r.units ∧ r.source ≠ r.target) ∧
      (∀ f ∈ t.funds, ∃ before p now, Brings s acts before p now (.fund f) ∧
        ∃ then_, Act.ask p (.createFund f) then_ ∈ before) ∧
      (∀ fund owner, t.InDebt fund owner →
        ∃ before p now units, Indebts fresh acts before p now fund owner units ∧
          ∃ then_, Act.ask p (.credit fund owner units) then_ ∈ before) ∧
      ((∀ part, part <+: acts → (s.run part).world.tables.Checked) ↔
        (∀ before p now f, Brings s acts before p now (.fund f) → 0 < f.totalUnits) ∧
          ∀ before p now fund owner units, ¬ Indebts fresh acts before p now fund owner units) := by
  intro s t
  refine ⟨fun r hr => transfer_checked hr, ?_, ?_, checked_run_iff fresh acts⟩
  · intro f hf
    obtain ⟨before, p, now, hbrings⟩ := fund_brought hf
    exact ⟨before, p, now, hbrings, hbrings.asked rfl⟩
  · intro fund owner hdebt
    obtain ⟨before, p, now, units, h⟩ := debt_brought hdebt
    exact ⟨before, p, now, units, h, h.brings.asked rfl⟩

/-! ## A debt -/

def indebted : List Act :=
  founding 0 hull adas ++
    [.ask 1 .openTx ⟨1⟩, .ask 1 (.credit hull.id "Ben" (-5)) ⟨1⟩, .ask 1 .commit ⟨2⟩]

/-- Not every run keeps the checks: Ben's entry has −5 units. -/
theorem unchecked_rows_happen :
    ¬ ∀ fresh acts, ((State.opened fresh {}).run acts).world.tables.Checked := by
  intro h
  have hchecked := (h (fun n => Uuid.ofNat (n + 100)) indebted).entries
  have hben : ∃ e ∈ ((State.opened (fun n => Uuid.ofNat (n + 100)) {}).run
      indebted).world.tables.entries, e.units < 0 := by
    decide +kernel
  obtain ⟨e, he, hnegative⟩ := hben
  exact absurd hnegative (Int.not_lt.mpr (hchecked e he))

end UnitLedger.Transactions
