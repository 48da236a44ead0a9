import UnitLedger.Entry
import UnitLedger.Fund
import UnitLedger.Transfer

/-!
  UnitLedger.Proofs.Accepted — what is known of accepted input.

  Each check of what a caller wrote gives the rows or the order that the ledger works with; here is
  what such a row or order has to do with the input.
-/

namespace UnitLedger

theorem Units.checked?_eq_some {units min n : Int} (h : Units.checked? units min = some n) :
    n = units ∧ min ≤ n ∧ n ≤ Units.greatest := by
  unfold Units.checked? at h
  split at h
  · cases h
  · cases h
    refine ⟨rfl, by omega, by omega⟩

structure Fund.Accepted (f : Fund) (id : Uuid) (name : String) (totalUnits : Int) : Prop where
  id : f.id = id
  name : Name.normalize? name = some f.name
  totalUnits : f.totalUnits = totalUnits
  positive : 1 ≤ f.totalUnits
  bounded : f.totalUnits ≤ Units.greatest

theorem Fund.accepted {id : Uuid} {now : Instant} {name : String} {totalUnits : Int} {f : Fund}
    (h : Fund.create id now name totalUnits = .ok f) : f.Accepted id name totalUnits := by
  unfold Fund.create at h
  split at h
  · rename_i n u hn hu
    cases h
    obtain ⟨rfl, hmin, hmax⟩ := Units.checked?_eq_some hu
    exact ⟨rfl, hn, rfl, hmin, hmax⟩
  · cases h

structure Entry.Accepted (e : Entry) (id fund : Uuid) (owner : String) (units : Int) : Prop where
  id : e.id = id
  fund : e.fund = fund
  owner : Name.normalize? owner = some e.owner
  units : e.units = units
  active : e.isActive = true
  nonneg : 0 ≤ e.units

theorem Entry.accepted {id fund : Uuid} {now : Instant} {owner : String} {units : Int} {e : Entry}
    (h : Entry.create id now fund owner units = .ok e) : e.Accepted id fund owner units := by
  unfold Entry.create at h
  split at h
  · cases h
  · rename_i o ho
    split at h
    · cases h
    · rename_i u hu
      cases h
      obtain ⟨rfl, hmin, -⟩ := Units.checked?_eq_some hu
      exact ⟨rfl, rfl, ho, rfl, rfl, hmin⟩

structure TransferOrder.Accepted (o : TransferOrder) (r : TransferRequest) : Prop where
  fund : o.fund = r.fund
  source : Name.normalize? r.source = some o.source
  target : Name.normalize? r.target = some o.target
  units : o.units = r.units
  key : o.key = r.key
  differ : o.source ≠ o.target
  positive : 1 ≤ o.units
  bounded : o.units ≤ Units.greatest

theorem TransferOrder.accepted {r : TransferRequest} {o : TransferOrder}
    (h : r.validate = .ok o) : o.Accepted r := by
  unfold TransferRequest.validate at h
  split at h
  · rename_i source target hsource htarget
    split at h
    · cases h
    · rename_i u hu
      split at h
      · cases h
      · rename_i hdiffer
        cases h
        obtain ⟨rfl, hmin, hmax⟩ := Units.checked?_eq_some hu
        exact ⟨rfl, hsource, htarget, rfl, rfl, hdiffer, hmin, hmax⟩
  · cases h

end UnitLedger
