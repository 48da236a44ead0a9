import UnitLedger.Proofs.Memory.NetEffect
import UnitLedger.Proofs.Transactions.Constraints

/-!
  UnitLedger.Proofs.Transactions.NetEffect — what a commit comes to, whatever the order of its writes.

  A commit carries its writes out one after the other: a credit may create the entry that later writes
  change, a debit finds its entry by the id and a credit by the owner, and each is checked on its own.
  When all of them go through under new ids, what is left of this order is one sum for each owner
  (`commit_net_effect`): the units before, those of the entry that the journal creates, and all credits
  of the owner less all debits of the entry. Nothing is rounded or wrapped.
-/

namespace UnitLedger.Transactions

open Memory (Party World NetEffect)

/-- A commit that goes through, and creates its entries under new ids, leaves what its journal comes to:
from any rows that transactions can lead to, with any writes in any order. -/
theorem commit_net_effect {w : World} {p : Party} {now : Instant} (reached : Reached w.tables)
    (new : (w.journal p).NewIds (fun n => w.fresh (w.used + n)) w.tables)
    (goes : (w.commitTx p now).2 = .ok ()) :
    NetEffect (w.journal p) w.tables (w.commitTx p now).1.tables :=
  Memory.Tables.commit_netEffect reached.consistent.keyed new (World.commitTx_ok.mp goes)

/-! ## Writes in no particular order -/

def dans : Entry := { adas with id := Uuid.ofNat 3, owner := "Dan", units := 2 }

/-- Ada's fund is founded. Another transaction credits Ben, who has no entry, debits Ada, creates an
entry for Dan, credits and debits it, and credits Ben once more. -/
def shuffled : List Act :=
  founding 0 hull adas ++
    [.ask 1 .openTx ⟨1⟩, .ask 1 (.credit hull.id "Ben" 3) ⟨1⟩, .ask 1 (.debit adas.id 6) ⟨1⟩,
      .ask 1 (.createEntry dans) ⟨1⟩, .ask 1 (.credit hull.id "Dan" 5) ⟨1⟩,
      .ask 1 (.debit dans.id 1) ⟨1⟩, .ask 1 (.credit hull.id "Ben" (-1)) ⟨1⟩]

theorem shuffled_net_effect :
    let w := ((State.opened (fun n => Uuid.ofNat (n + 100)) {}).run shuffled).world
    let after := (w.commitTx 1 ⟨2⟩).1.tables
    (w.journal 1).NewIds (fun n => w.fresh (w.used + n)) w.tables ∧ (w.commitTx 1 ⟨2⟩).2 = .ok () ∧
      NetEffect (w.journal 1) w.tables after ∧
      after.entries.map (fun e => (e.owner, e.units)) = [("Ada", 4), ("Ben", 2), ("Dan", 6)] := by
  intro w after
  have hnew : (w.journal 1).NewIds (fun n => w.fresh (w.used + n)) w.tables :=
    ⟨by decide +kernel, by decide +kernel⟩
  have goes : (w.commitTx 1 ⟨2⟩).2 = .ok () := by decide +kernel
  exact ⟨hnew, goes, commit_net_effect ⟨_, _, rfl⟩ hnew goes, by decide +kernel⟩

end UnitLedger.Transactions
