import UnitLedger.Proofs.Memory.Replaced
import UnitLedger.Proofs.Transactions.Origins
import UnitLedger.Proofs.Transactions.Refusal

/-!
  UnitLedger.Proofs.Transactions.Replaced — a commit that goes through, whatever the transaction did.

  Funds and transfers stay as they are. An entry keeps its id, and it stays the same but for its balance
  and its time of change, unless the transaction stored another entry under its id
  (`commit_keeps_rows`). Such an id is one that the transaction chose itself, since a new one of the
  supply is nobody's. Nothing refuses it: `takenId` is a commit that goes through and makes Ada's entry
  Ben's.
-/

namespace UnitLedger.Transactions

open Memory (Party Tables)
open Memory.Tables (repriced)

variable {acts : List Act} {p : Party} {now : Instant}

def State.lastFiled (s : State) (p : Party) (now : Instant) (id : Uuid) : Option Entry :=
  Tables.lastOf id (s.world.tables.filed (fun n => s.world.fresh (s.world.used + n)) now
    (s.world.journal p))

/-- What a commit stores was created by its own transaction, or by one of its credits with an id of the
supply. -/
theorem State.lastFiled_origin {fresh : Nat → Uuid} {tables : Tables} {id : Uuid} {d : Entry}
    (h : ((State.opened fresh tables).run acts).lastFiled p now id = some d) :
    let s := (State.opened fresh tables).run acts
    d.id = id ∧ ((∃ then_, Act.ask p (.createEntry d) then_ ∈ acts) ∨
      ∃ n < (s.world.journal p).length, s.world.fresh (s.world.used + n) = id) := by
  intro s
  obtain ⟨hmem, hid⟩ := List.mem_filter.mp (List.mem_of_getLast? h)
  have hid : d.id = id := beq_iff_eq.mp hid
  refine ⟨hid, ?_⟩
  rcases Tables.mem_filed hmem with hentry | ⟨n, hn, fund, owner, units, -, rfl⟩
  · exact Or.inl ((journaled_run fresh tables acts).journals p _ _ hentry rfl)
  · exact Or.inr ⟨n, hn, hid⟩

/-- A commit that goes through loses no fund, no transfer and no entry's id, and changes nothing of a
fund or a transfer. A committed entry stays the same up to its balance and time of change exactly if the
last entry that the commit stores under its id, if there is one, is the same up to these. What a commit
stores has an id that its transaction chose, or one of the supply. -/
theorem commit_keeps_rows {fresh : Nat → Uuid} {tables : Tables} (distinct : tables.entryIds.Nodup)
    (acts : List Act) (goes : ((State.opened fresh tables).run acts).commits p now = true) :
    let s := (State.opened fresh tables).run acts
    let after := (s.step (.ask p .commit now)).world.tables
    s.world.tables.funds <+: after.funds ∧ s.world.tables.transfers <+: after.transfers ∧
      (∀ e ∈ s.world.tables.entries, e.id ∈ after.entryIds ∧
        ((∃ units at_, repriced units at_ e ∈ after.entries) ↔
          ∀ d, s.lastFiled p now e.id = some d → ∃ units at_, d = repriced units at_ e)) ∧
      ∀ id d, s.lastFiled p now id = some d → d.id = id ∧
        ((∃ then_, Act.ask p (.createEntry d) then_ ∈ acts) ∨
          ∃ n < (s.world.journal p).length, s.world.fresh (s.world.used + n) = id) := by
  intro s after
  have hids : s.world.tables.entryIds.Nodup := State.distinct_run distinct acts
  have hcommit : s.world.tables.commit (fun n => s.world.fresh (s.world.used + n)) now
      (s.world.journal p) = (after, .ok ()) := by
    rw [show after = s.committed p now from State.tables_of_commits goes]
    exact State.commit_of_commits goes
  refine ⟨Tables.commit_funds hcommit, Tables.commit_transfers hcommit, fun e he => ?_, fun id d h => ?_⟩
  · exact Tables.commit_entry hids hcommit he
  · exact State.lastFiled_origin h

/-! ## An entry that is taken over -/

def takenId : List Act :=
  founding 0 hull adas ++ [.ask 1 .openTx ⟨1⟩, .ask 1 (.createEntry bens) ⟨1⟩]

/-- The commit goes through, and no entry is Ada's any more. -/
theorem takenId_replaces :
    let s := (State.opened (fun n => Uuid.ofNat (n + 100)) {}).run takenId
    s.commits 1 ⟨2⟩ = true ∧ s.world.tables.entries = [adas] ∧ s.lastFiled 1 ⟨2⟩ adas.id = some bens ∧
      ¬ ∃ units at_, repriced units at_ adas ∈ (s.step (.ask 1 .commit ⟨2⟩)).world.tables.entries := by
  intro s
  have goes : s.commits 1 ⟨2⟩ = true := by decide +kernel
  have hentries : s.world.tables.entries = [adas] := by decide +kernel
  have hlast : s.lastFiled 1 ⟨2⟩ adas.id = some bens := by decide +kernel
  have hids : ({} : Tables).entryIds.Nodup := List.nodup_nil
  obtain ⟨-, -, hkeeps, -⟩ := commit_keeps_rows hids takenId goes
  refine ⟨goes, hentries, hlast, fun hstill => ?_⟩
  have hadas : adas ∈ s.world.tables.entries := by rw [hentries]; exact List.mem_singleton_self _
  obtain ⟨units, at_, hbens⟩ := (hkeeps adas hadas).2.mp hstill bens hlast
  have howner : bens.owner = adas.owner := by
    rw [hbens]
    rfl
  exact absurd howner (by decide)

/-- A commit that goes through does not always keep the committed entries: the entry of Ada's id is
Ben's afterwards. -/
theorem commit_replaces_rows : ¬ ∀ fresh tables acts p now e, tables.entryIds.Nodup →
    ((State.opened fresh tables).run acts).commits p now = true →
    e ∈ ((State.opened fresh tables).run acts).world.tables.entries →
    ∃ d ∈ (((State.opened fresh tables).run acts).step (.ask p .commit now)).world.tables.entries,
      d.id = e.id ∧ d.fund = e.fund ∧ d.owner = e.owner ∧ d.acquiredAt = e.acquiredAt ∧
        d.state = e.state := by
  intro h
  have hkept := h (fun n => Uuid.ofNat (n + 100)) {} takenId 1 ⟨2⟩ adas List.nodup_nil
    (by decide +kernel) (by decide +kernel)
  revert hkept
  decide +kernel

end UnitLedger.Transactions
