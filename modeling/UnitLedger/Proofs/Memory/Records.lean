import UnitLedger.Proofs.Memory.Applied

/-!
  UnitLedger.Proofs.Memory.Records — what a commit does to the list of transfers.

  A record is appended at the end of the list, and taking it back drops the last element without
  looking at it. So the law of a refused commit rests on the order in which the writes are taken back:
  a record is the last element again when its turn comes (`transfers_revert_apply`). Nothing else
  touches the list. A commit adds the records of its journal, in their order, or nothing
  (`transfers_commit`). None of this needs well-formed tables.
-/

namespace UnitLedger.Memory

def Write.record? : Write → Option Transfer
  | .transfer r => some r
  | .fund _ | .entry _ | .debit _ _ | .credit _ _ _ => none

def Journal.records (j : Journal) : List Transfer := j.filterMap Write.record?

theorem Journal.records_concat (j : Journal) (w : Write) :
    Journal.records (j ++ [w]) = j.records ++ w.record?.toList := by
  unfold Journal.records
  rw [List.filterMap_append]
  cases h : w.record? <;> simp [h]

namespace Tables

variable {t t' : Tables} {fresh : Nat → Uuid} {freshId : Uuid} {now : Instant} {w : Write}
  {undo : Undo} {journal : Journal}

theorem transfers_apply (h : t.apply freshId now w = .ok (t', undo)) :
    t'.transfers = t.transfers ++ w.record?.toList := by
  cases applied h with
  | transfer => rfl
  | _ => exact (List.append_nil _).symm

/-- What a record of a write does to the list of transfers depends on this list alone. -/
theorem transfers_revert_congr (undo : Undo) (h : t.transfers = t'.transfers) :
    (t.revert undo).transfers = (t'.revert undo).transfers := by
  cases undo with
  | transfer => exact congrArg List.dropLast h
  | _ => exact h

theorem transfers_undos_congr (undos : List Undo) (h : t.transfers = t'.transfers) :
    (undos.foldl revert t).transfers = (undos.foldl revert t').transfers := by
  induction undos generalizing t t' with
  | nil => exact h
  | cons undo undos ih => exact ih (transfers_revert_congr undo h)

/-- Right after a write, what it recorded takes its record back and no other one. -/
theorem transfers_revert_apply (h : t.apply freshId now w = .ok (t', undo)) :
    (t'.revert undo).transfers = t.transfers := by
  cases applied h with
  | transfer => exact List.dropLast_concat
  | _ => rfl

/-- By induction on the writes. The records are gathered on the way down; when a write is refused, the
undo log takes them back from the top, each time from the list that its write has left. -/
theorem transfers_applyAll (fresh : Nat → Uuid) (now : Instant) (t : Tables) (undos : List Undo)
    (journal : Journal) :
    (t.applyAll fresh now undos journal).1.transfers =
      match (t.applyAll fresh now undos journal).2 with
      | .ok () => t.transfers ++ journal.records
      | .error _ => (undos.foldl revert t).transfers := by
  induction journal generalizing fresh t undos with
  | nil => simp [applyAll, Journal.records]
  | cons w rest ih =>
    simp only [applyAll]
    cases happly : t.apply (fresh 0) now w with
    | error v => rfl
    | ok done =>
      obtain ⟨next, undo⟩ := done
      dsimp only
      rw [ih]
      split
      · have hrecords : Journal.records (w :: rest) = w.record?.toList ++ Journal.records rest := by
          unfold Journal.records
          cases hw : w.record? <;> simp [hw]
        rw [transfers_apply happly, hrecords, List.append_assoc]
      · exact transfers_undos_congr undos (transfers_revert_apply happly)

/-- A commit that goes through adds the records of its journal, in their order. A refused one adds
nothing and takes nothing away. -/
theorem transfers_commit (fresh : Nat → Uuid) (now : Instant) (t : Tables) (journal : Journal) :
    (t.commit fresh now journal).1.transfers =
      match (t.commit fresh now journal).2 with
      | .ok () => t.transfers ++ journal.records
      | .error _ => t.transfers :=
  transfers_applyAll fresh now t [] journal

end Tables

end UnitLedger.Memory
