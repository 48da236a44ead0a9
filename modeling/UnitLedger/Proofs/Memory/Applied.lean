import UnitLedger.Memory.Journal
import UnitLedger.Proofs.Memory.Rows

/-!
  UnitLedger.Proofs.Memory.Applied — what a write does when it is carried out.

  A write that is not refused is carried out in one of six ways (`Applied`): each lists the checks that
  the tables have passed, the tables that the write leaves and what is recorded to take it back. A
  credit has two of these ways, since it creates the entry of an owner who has none. `applyAll_keeps`
  carries what single writes keep through a journal.
-/

namespace UnitLedger.Memory

def firstCredit (id : Uuid) (now : Instant) (fund : Uuid) (owner : String) (units : Int) : Entry :=
  { id, fund, owner, units, acquiredAt := now, updatedAt := now, state := .active }

inductive Applied (t : Tables) (freshId : Uuid) (now : Instant) : Write → Tables → Undo → Prop where
  | fund {f} (newId : t.hasFund f.id = false) (newName : t.hasFundName f.name = false) :
      Applied t freshId now (.fund f) { t with funds := t.funds ++ [f] } (.fund f.id)
  | entry {e} (fund : t.hasFund e.fund = true) (units : 0 ≤ e.units)
      (free : e.isActive = true → t.activeOf e.fund e.owner = none) :
      Applied t freshId now (.entry e) (t.putEntry e) (.entry e.id)
  | debit {e units} (mem : e ∈ t.entries) (active : e.isActive = true)
      (covered : 0 ≤ e.units - units) (fits : Units.Fits (e.units - units)) :
      Applied t freshId now (.debit e.id units) (t.setUnits e.id (e.units - units) now)
        (.units e.id e.units e.updatedAt)
  | credit {e fund owner units} (found : t.activeOf fund owner = some e)
      (fits : Units.Fits (e.units + units)) :
      Applied t freshId now (.credit fund owner units) (t.setUnits e.id (e.units + units) now)
        (.units e.id e.units e.updatedAt)
  | creates {fund owner units} (free : t.activeOf fund owner = none)
      (hasFund : t.hasFund fund = true) :
      Applied t freshId now (.credit fund owner units)
        (t.putEntry (firstCredit freshId now fund owner units)) (.entry freshId)
  | transfer {r} (differ : r.source ≠ r.target) (positive : 0 < r.units)
      (fund : t.hasFund r.fund = true) (source : t.hasActive r.fund r.source = true)
      (target : t.hasActive r.fund r.target = true)
      (newKey : ∀ k, r.key = some k → t.findByKey k = none) :
      Applied t freshId now (.transfer r) { t with transfers := t.transfers ++ [r] } .transfer

namespace Tables

variable {t t' : Tables} {freshId : Uuid} {now : Instant} {undo : Undo}

theorem applied_debit {id : Uuid} {units : Int} (h : t.applyDebit now id units = .ok (t', undo)) :
    Applied t freshId now (.debit id units) t' undo := by
  unfold applyDebit at h
  split at h
  · cases h
  · rename_i e hfound
    obtain ⟨hfound, hactive⟩ := Option.filter_eq_some_iff.mp hfound
    obtain ⟨he, rfl⟩ := mem_of_entryById hfound
    split at h
    · cases h
    · rename_i rest hrest
      obtain ⟨hsub, hrest⟩ := Option.filter_eq_some_iff.mp hrest
      unfold Units.sub? at hsub
      split at hsub
      · rename_i hfits
        cases hsub
        cases h
        exact .debit he hactive (by simpa using hrest) hfits
      · cases hsub

theorem applied_credit {fund : Uuid} {owner : String} {units : Int}
    (h : t.applyCredit freshId now fund owner units = .ok (t', undo)) :
    Applied t freshId now (.credit fund owner units) t' undo := by
  unfold applyCredit at h
  split at h
  · rename_i e hfound
    unfold Units.add? at h
    by_cases hfits : Units.Fits (e.units + units)
    · rw [if_pos hfits] at h
      cases h
      exact .credit hfound hfits
    · rw [if_neg hfits] at h
      cases h
  · rename_i hfree
    split at h
    · cases h
    · rename_i hfund
      cases h
      exact .creates hfree (by simpa using hfund)

/-- A write that is carried out is carried out in one of the six ways. -/
theorem applied {w : Write} (h : t.apply freshId now w = .ok (t', undo)) :
    Applied t freshId now w t' undo := by
  cases w with
  | fund f =>
    simp only [apply, applyFund] at h
    split at h
    · cases h
    · rename_i hid
      split at h
      · cases h
      · rename_i hname
        cases h
        exact .fund (by simpa using hid) (by simpa using hname)
  | entry e =>
    simp only [apply, applyEntry] at h
    split at h
    · cases h
    · rename_i hfund
      split at h
      · cases h
      · rename_i hunits
        split at h
        · cases h
        · rename_i hfree
          cases h
          refine .entry (by simpa using hfund) (by omega) fun hactive => ?_
          simpa [hactive, hasActive] using hfree
  | debit id units => exact applied_debit h
  | credit fund owner units => exact applied_credit h
  | transfer r =>
    simp only [apply, applyTransfer] at h
    split at h
    · cases h
    · rename_i hdiffer
      split at h
      · cases h
      · rename_i hpositive
        split at h
        · cases h
        · rename_i hfund
          split at h
          · cases h
          · rename_i hsource
            split at h
            · cases h
            · rename_i htarget
              split at h
              · cases h
              · rename_i hkey
                cases h
                refine .transfer hdiffer (by omega) (by simpa using hfund) (by simpa using hsource)
                  (by simpa using htarget) fun k hk => ?_
                simpa [hk] using hkey

theorem funds_prefix_apply {w : Write} (h : t.apply freshId now w = .ok (t', undo)) :
    t.funds <+: t'.funds := by
  cases applied h with
  | fund => exact List.prefix_append _ _
  | _ => exact List.prefix_refl _

/-! ## All writes of a journal -/

/-- What holds of the tables and is kept by every write that is carried out, holds when all of them
are. -/
theorem applyAll_keeps {P : Tables → Prop} {fresh : Nat → Uuid} {journal : Journal}
    {undos : List Undo} (start : P t)
    (step : ∀ (n : Nat) (w : Write) (t t' : Tables) (undo : Undo), journal[n]? = some w → P t →
      t.apply (fresh n) now w = .ok (t', undo) → P t')
    (h : t.applyAll fresh now undos journal = (t', .ok ())) : P t' := by
  induction journal generalizing fresh t undos with
  | nil =>
    cases h
    exact start
  | cons w rest ih =>
    simp only [applyAll] at h
    split at h
    · rename_i happly
      exact ih (step 0 w _ _ _ rfl start happly) (fun n => step (n + 1)) h
    · cases h

end Tables

end UnitLedger.Memory
