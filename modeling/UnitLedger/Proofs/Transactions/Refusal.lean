import UnitLedger.Proofs.Transactions.Frame

/-!
  UnitLedger.Proofs.Transactions.Refusal — a refused commit, whatever the transaction did.

  In every run of any transactions no two committed entries share an id (`distinct_run`). So a commit
  that is refused takes all its writes back, except that it loses the committed entries whose ids it
  had stored an entry of its own under (`refused_commit`). Such an id is one that the transaction chose
  itself, since a new one of the supply is nobody's.

  The loss is real: taking back an entry removes what stands under its id, and nothing brings the
  overwritten entry back (`refused_commit_loses`). New funds are checked for their id before they are
  stored; new entries are not.
-/

namespace UnitLedger.Transactions

open Memory (Party World Journal Write Tables)
open Store (Op)

variable {s s' : State} {a : Act} {p : Party} {now : Instant}

/-! ## The committed rows -/

/-- In every run the committed entries have ids of their own. -/
theorem State.distinct_run {fresh : Nat → Uuid} {tables : Tables} (distinct : tables.entryIds.Nodup)
    (acts : List Act) : ((State.opened fresh tables).run acts).world.tables.entryIds.Nodup := by
  refine State.run_history (P := fun _ s => s.world.tables.entryIds.Nodup) distinct ?_ acts
  intro acts a s' hids hstep
  rcases hstep.tables with h | ⟨p, now, -, h, -⟩ | ⟨-, h⟩ <;> rw [h]
  · exact hids
  · exact Tables.entryIds_commit _ now _ hids
  · exact List.nodup_nil

/-! ## A refused commit -/

structure State.Refuses (s : State) (p : Party) (now : Instant) (err : StoreError) : Prop where
  allowed : s.allows p .commit = true
  answer : (s.world.commitTx p now).2 = .error err

/-- The ids under which the party's refused commit has stored entries before it took them back. -/
def State.stored (s : State) (p : Party) (now : Instant) : List Uuid :=
  s.world.tables.stored (fun n => s.world.fresh (s.world.used + n)) now (s.world.journal p)

/-- What a refused commit has stored has an id that the transaction chose, or one of the supply. -/
theorem State.mem_stored {id : Uuid} (h : id ∈ s.stored p now) :
    (∃ e, Write.entry e ∈ s.world.journal p ∧ e.id = id) ∨
      ∃ n < (s.world.journal p).length, s.world.fresh (s.world.used + n) = id :=
  Journal.mem_created (Tables.stored_subset _ now _ _ h)

theorem State.Refuses.committed {err : StoreError} (h : s.Refuses p now err) :
    ∃ v, s.world.tables.commit (fun n => s.world.fresh (s.world.used + n)) now (s.world.journal p) =
      (s.committed p now, .error v) := by
  have hanswer := h.answer
  simp only [World.commitTx] at hanswer
  unfold State.committed
  rcases hcommit : s.world.tables.commit (fun n => s.world.fresh (s.world.used + n)) now
      (s.world.journal p) with ⟨t, v | u⟩
  · exact ⟨v, rfl⟩
  · rw [hcommit] at hanswer
    cases hanswer

/-- A commit that is refused leaves funds, transfers and entries as they were, in every field, except
for the entries whose ids it had stored entries under; so it changes something exactly if it reused
the id of a committed entry. -/
theorem refused_commit {fresh : Nat → Uuid} {tables : Tables} (distinct : tables.entryIds.Nodup)
    (acts : List Act) {err : StoreError}
    (refused : ((State.opened fresh tables).run acts).Refuses p now err) :
    let s := (State.opened fresh tables).run acts
    (s.step (.ask p .commit now)).world.tables = s.world.tables.without (s.stored p now) ∧
      ((s.step (.ask p .commit now)).world.tables = s.world.tables ↔
        ∀ id ∈ s.stored p now, id ∉ s.world.tables.entryIds) ∧
      ∀ id ∈ s.stored p now, (∃ e, Write.entry e ∈ s.world.journal p ∧ e.id = id) ∨
        ∃ n < (s.world.journal p).length, s.world.fresh (s.world.used + n) = id := by
  intro s
  have hids : s.world.tables.entryIds.Nodup := State.distinct_run distinct acts
  have hleft : (s.step (.ask p .commit now)).world.tables =
      s.world.tables.without (s.stored p now) := by
    obtain ⟨v, hcommit⟩ := refused.committed
    rw [State.step, if_pos refused.allowed]
    exact Tables.commit_error hids hcommit
  refine ⟨hleft, ?_, fun id hid => State.mem_stored hid⟩
  rw [hleft]
  exact Tables.without_eq_self

/-! ## An entry that is lost -/

def bens : Entry := { adas with owner := "Ben", units := 5 }

/-- One transaction founds a fund for Ada. Another stores an entry of Ben's under the id of Ada's, and
debits an entry that does not exist. -/
def reusedId : List Act :=
  founding 0 hull adas ++
    [.ask 1 .openTx ⟨1⟩, .ask 1 (.createEntry bens) ⟨1⟩, .ask 1 (.debit (Uuid.ofNat 9) 1) ⟨1⟩]

theorem reusedId_refused : ((State.opened (fun n => Uuid.ofNat (n + 100)) {}).run reusedId).Refuses 1
    ⟨2⟩ (.unavailable "cap table entry 00000000-0000-0000-0000-000000000009 vanished") :=
  ⟨by decide +kernel, by decide +kernel⟩

/-- The refused commit has removed Ada's entry. -/
theorem reusedId_lost :
    let s := (State.opened (fun n => Uuid.ofNat (n + 100)) {}).run reusedId
    s.world.tables.entries = [adas] ∧ s.stored 1 ⟨2⟩ = [adas.id] ∧
      (s.step (.ask 1 .commit ⟨2⟩)).world.tables = s.world.tables.without [adas.id] ∧
      (s.step (.ask 1 .commit ⟨2⟩)).world.tables.entries = [] := by
  intro s
  have hstored : s.stored 1 ⟨2⟩ = [adas.id] := by decide +kernel
  have hids : ({} : Tables).entryIds.Nodup := List.nodup_nil
  have hleft := (refused_commit hids reusedId reusedId_refused).1
  rw [hstored] at hleft
  exact ⟨by decide +kernel, hstored, hleft, by decide +kernel⟩

/-- A refused commit does not always leave the committed rows as they were. -/
theorem refused_commit_loses : ¬ ∀ fresh tables acts p now err, tables.entryIds.Nodup →
    ((State.opened fresh tables).run acts).Refuses p now err →
    (((State.opened fresh tables).run acts).step (.ask p .commit now)).world.tables =
      ((State.opened fresh tables).run acts).world.tables := by
  intro h
  have hsame := h _ {} _ _ _ _ List.nodup_nil reusedId_refused
  revert hsame
  decide +kernel

end UnitLedger.Transactions
