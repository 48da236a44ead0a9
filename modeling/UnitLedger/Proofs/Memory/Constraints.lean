import UnitLedger.Proofs.Memory.Applied
import UnitLedger.Proofs.Memory.Balances

/-!
  UnitLedger.Proofs.Memory.Constraints — which constraints the committed rows meet.

  Two kinds of constraints are checked when a write is carried out. The first relate rows to each
  other: ids, names, active owners and idempotency keys are unique, and what belongs to a fund belongs
  to one that exists (`Consistent`). Every write keeps them, and so does taking writes back, since a
  refused commit leaves rows out and changes none.

  The others are about one row: a fund and a transfer have units, an entry has no debt, and a transfer
  has two owners (`Checked`). Transfers, new entries and debits are checked for them. New funds are
  not, and a credit is checked only for the range of the column. So a commit can leave an entry in
  debt, but then it credits negative units to the entry's owner (`commit_debt`).
-/

namespace UnitLedger.Memory.Tables

variable {t t' : Tables} {fresh : Nat → Uuid} {freshId : Uuid} {now : Instant} {w : Write}
  {undo : Undo}

/-! ## Rows among each other -/

structure Consistent (t : Tables) : Prop where
  fundIds : (t.funds.map (·.id)).Nodup
  fundNames : (t.funds.map (·.name)).Nodup
  keyed : t.Keyed
  keys : (t.transfers.filterMap (·.key)).Nodup
  entryFunds : ∀ e ∈ t.entries, t.hasFund e.fund = true
  transferFunds : ∀ r ∈ t.transfers, t.hasFund r.fund = true

theorem consistent_empty : Consistent {} :=
  ⟨List.nodup_nil, List.nodup_nil, keyed_empty, List.nodup_nil, nofun, nofun⟩

theorem hasFund_append (f : Fund) {id : Uuid} (h : t.hasFund id = true) :
    { t with funds := t.funds ++ [f] }.hasFund id = true := by
  obtain ⟨g, hg, hid⟩ := hasFund_iff.mp h
  exact hasFund_iff.mpr ⟨g, List.mem_append_left _ hg, hid⟩

theorem Consistent.setUnits (ok : t.Consistent) (id : Uuid) (units : Int) :
    (t.setUnits id units now).Consistent := by
  refine ⟨ok.fundIds, ok.fundNames, ok.keyed.setUnits id units, ok.keys, ?_, ok.transferFunds⟩
  intro e he
  obtain ⟨d, hd, rfl⟩ := mem_setUnits.mp he
  split <;> exact ok.entryFunds d hd

theorem Consistent.putEntry (ok : t.Consistent) {e : Entry} (hfund : t.hasFund e.fund = true)
    (hfree : e.isActive = true → t.activeOf e.fund e.owner = none) : (t.putEntry e).Consistent := by
  refine ⟨ok.fundIds, ok.fundNames, ok.keyed.putEntry hfree, ok.keys, ?_, ok.transferFunds⟩
  intro d hd
  rcases mem_putEntry.mp hd with ⟨hd, -⟩ | rfl
  · exact ok.entryFunds d hd
  · exact hfund

/-- Leaving entries out leaves no row without its fund. -/
theorem Consistent.without (ok : t.Consistent) (ids : List Uuid) : (t.without ids).Consistent :=
  ⟨ok.fundIds, ok.fundNames, ok.keyed.without ids, ok.keys,
    fun e he => ok.entryFunds e (List.mem_filter.mp he).1, ok.transferFunds⟩

theorem Consistent.apply (ok : t.Consistent) (h : t.apply freshId now w = .ok (t', undo)) :
    t'.Consistent := by
  cases applied h with
  | @fund f newId newName =>
    refine ⟨nodup_map_concat ok.fundIds ?_, nodup_map_concat ok.fundNames ?_,
      ⟨ok.keyed.ids, ok.keyed.holders⟩, ok.keys, ?_, ?_⟩
    · intro g hg hid
      rw [hasFund_iff.mpr ⟨g, hg, hid⟩] at newId
      cases newId
    · intro g hg hname
      rw [hasFundName, List.any_eq_false] at newName
      exact newName g hg (beq_iff_eq.mpr hname)
    · exact fun e he => hasFund_append f (ok.entryFunds e he)
    · exact fun r hr => hasFund_append f (ok.transferFunds r hr)
  | entry fund units free => exact ok.putEntry fund free
  | debit | credit => exact ok.setUnits _ _
  | creates free hasFund => exact ok.putEntry hasFund fun _ => free
  | @transfer r differ positive fund source target newKey =>
    refine ⟨ok.fundIds, ok.fundNames, ⟨ok.keyed.ids, ok.keyed.holders⟩, ?_, ok.entryFunds, ?_⟩
    · cases hkey : r.key with
      | none => simpa [List.filterMap_append, hkey] using ok.keys
      | some k =>
        have hfree : k ∉ t.transfers.filterMap (·.key) := by
          intro hmem
          obtain ⟨x, hx, hxk⟩ := List.mem_filterMap.mp hmem
          have hused := findByKey_isSome_iff.mpr ⟨x, hx, hxk⟩
          rw [newKey k hkey] at hused
          cases hused
        simpa [List.filterMap_append, hkey] using ok.keys.concat hfree
    · intro x hx
      rcases List.mem_append.mp hx with hx | hx
      · exact ok.transferFunds x hx
      · exact List.mem_singleton.mp hx ▸ fund

/-- A commit keeps the rows consistent, whether it is refused or not. -/
theorem Consistent.commit (ok : t.Consistent) (fresh : Nat → Uuid) (now : Instant)
    (journal : Journal) : (t.commit fresh now journal).1.Consistent := by
  rcases h : t.commit fresh now journal with ⟨t', v | u⟩
  · rw [commit_error ok.keyed.ids h]
    exact ok.without _
  · exact applyAll_keeps ok (fun _ _ _ _ _ _ ok happly => ok.apply happly) h

/-- A fund is found under its id and under no other. -/
theorem Consistent.findFund_eq_some (ok : t.Consistent) {id : Uuid} {f : Fund} :
    t.findFund id = some f ↔ f ∈ t.funds ∧ f.id = id :=
  find?_eq_some_of_nodup ok.fundIds

/-- The active entries have owners of their own, in each fund. -/
theorem Consistent.holders (ok : t.Consistent) :
    ((t.entries.filter (·.isActive)).map fun e => (e.fund, e.owner)).Nodup := by
  refine List.Nodup.map_on ?_ ((List.Nodup.of_map _ ok.keyed.ids).filter _)
  intro a ha b hb hab
  obtain ⟨ha, hactive⟩ := List.mem_filter.mp ha
  obtain ⟨hb, hactive'⟩ := List.mem_filter.mp hb
  obtain ⟨hfund, howner⟩ := Prod.mk.inj hab
  exact ok.keyed.holders a ha b hb hactive hactive' hfund howner

/-! ## Rows by themselves -/

structure Checked (t : Tables) : Prop where
  funds : ∀ f ∈ t.funds, 0 < f.totalUnits
  entries : ∀ e ∈ t.entries, 0 ≤ e.units
  transfers : ∀ r ∈ t.transfers, 0 < r.units ∧ r.source ≠ r.target

theorem mem_funds_apply (h : t.apply freshId now w = .ok (t', undo)) {f : Fund} (hf : f ∈ t'.funds) :
    f ∈ t.funds ∨ w = .fund f := by
  cases applied h with
  | fund =>
    rcases List.mem_append.mp hf with hf | hf
    · exact Or.inl hf
    · exact Or.inr (by rw [List.mem_singleton.mp hf])
  | _ => exact Or.inl hf

/-- A transfer that is carried out has passed its checks. -/
theorem mem_transfers_apply (h : t.apply freshId now w = .ok (t', undo)) {r : Transfer}
    (hr : r ∈ t'.transfers) : r ∈ t.transfers ∨ 0 < r.units ∧ r.source ≠ r.target := by
  cases applied h with
  | transfer differ positive =>
    rcases List.mem_append.mp hr with hr | hr
    · exact Or.inl hr
    · exact Or.inr (List.mem_singleton.mp hr ▸ ⟨positive, differ⟩)
  | _ => exact Or.inl hr

def InDebt (t : Tables) (fund : Uuid) (owner : String) : Prop :=
  ∃ e ∈ t.entries, e.fund = fund ∧ e.owner = owner ∧ e.units < 0

/-- Only a credit of negative units puts an owner in debt. -/
theorem inDebt_apply (keyed : t.Keyed) (h : t.apply freshId now w = .ok (t', undo)) {fund : Uuid}
    {owner : String} (hdebt : t'.InDebt fund owner) :
    t.InDebt fund owner ∨ ∃ units, units < 0 ∧ w = .credit fund owner units := by
  obtain ⟨e, he, rfl, rfl, hnegative⟩ := hdebt
  cases applied h with
  | fund | transfer => exact Or.inl ⟨e, he, rfl, rfl, hnegative⟩
  | entry fund units free =>
    rcases mem_putEntry.mp he with ⟨he, -⟩ | rfl
    · exact Or.inl ⟨e, he, rfl, rfl, hnegative⟩
    · omega
  | debit mem active covered fits =>
    obtain ⟨d, hd, rfl⟩ := mem_setUnits.mp he
    split at hnegative
    · exact absurd hnegative (Int.not_lt.mpr covered)
    · rename_i hne
      rw [if_neg hne]
      exact Or.inl ⟨d, hd, rfl, rfl, hnegative⟩
  | @credit x fund owner units found fits =>
    obtain ⟨hx, rfl, rfl, -⟩ := mem_of_activeOf found
    obtain ⟨d, hd, rfl⟩ := mem_setUnits.mp he
    by_cases hid : d.id = x.id
    · obtain rfl := keyed.eq_of_id hd hx hid
      rw [if_pos rfl] at hnegative ⊢
      -- The new balance is negative: either the old one was, or the credit is.
      by_cases hold : d.units < 0
      · exact Or.inl ⟨d, hd, rfl, rfl, hold⟩
      · have hsum : d.units + units < 0 := hnegative
        exact Or.inr ⟨units, by omega, rfl⟩
    · rw [if_neg hid] at hnegative ⊢
      exact Or.inl ⟨d, hd, rfl, rfl, hnegative⟩
  | @creates fund owner units free hasFund =>
    rcases mem_putEntry.mp he with ⟨he, -⟩ | rfl
    · exact Or.inl ⟨e, he, rfl, rfl, hnegative⟩
    · exact Or.inr ⟨units, hnegative, rfl⟩

/-! ## What a commit brings in -/

section Commit

variable {journal : Journal}

theorem mem_funds_commit (keyed : t.Keyed) {f : Fund} (hf : f ∈ (t.commit fresh now journal).1.funds) :
    f ∈ t.funds ∨ (t.commit fresh now journal).2 = .ok () ∧ Write.fund f ∈ journal := by
  rcases h : t.commit fresh now journal with ⟨t', v | u⟩ <;> rw [h] at hf
  · rw [commit_error keyed.ids h] at hf
    exact Or.inl hf
  · refine (applyAll_keeps (P := fun t'' => f ∈ t''.funds → f ∈ t.funds ∨ Write.fund f ∈ journal)
      Or.inl ?_ h hf).imp_right fun hmem => ⟨rfl, hmem⟩
    intro n w _ _ _ hw hbefore happly hf
    rcases mem_funds_apply happly hf with hf | rfl
    · exact hbefore hf
    · exact Or.inr (List.mem_of_getElem? hw)

/-- A commit that is not refused brings in every fund of its journal. -/
theorem mem_funds_of_commit {f : Fund} (hf : Write.fund f ∈ journal)
    (h : t.commit fresh now journal = (t', .ok ())) : f ∈ t'.funds := by
  unfold commit at h
  generalize ([] : List Undo) = undos at h
  induction journal generalizing fresh t undos with
  | nil => cases hf
  | cons w rest ih =>
    simp only [applyAll] at h
    split at h
    · rename_i next undo happly
      rcases List.mem_cons.mp hf with rfl | hf
      · have hnext : f ∈ next.funds := by
          cases applied happly with
          | fund => exact List.mem_append_right _ (List.mem_singleton_self f)
        exact applyAll_keeps (P := fun t'' => f ∈ t''.funds) hnext
          (fun _ _ _ _ _ _ hmem happly => (funds_prefix_apply happly).subset hmem) h
      · exact ih hf _ h
    · cases h

theorem mem_transfers_commit (keyed : t.Keyed) {r : Transfer}
    (hr : r ∈ (t.commit fresh now journal).1.transfers) :
    r ∈ t.transfers ∨ 0 < r.units ∧ r.source ≠ r.target := by
  rcases h : t.commit fresh now journal with ⟨t', v | u⟩ <;> rw [h] at hr
  · rw [commit_error keyed.ids h] at hr
    exact Or.inl hr
  · refine applyAll_keeps (P := fun t'' => r ∈ t''.transfers →
      r ∈ t.transfers ∨ 0 < r.units ∧ r.source ≠ r.target) Or.inl ?_ h hr
    intro n w _ _ _ _ hbefore happly hr
    rcases mem_transfers_apply happly hr with hr | hchecked
    · exact hbefore hr
    · exact Or.inr hchecked

/-- A commit puts an owner in debt only if it is not refused and credits negative units to this
owner. -/
theorem commit_debt (keyed : t.Keyed) {fund : Uuid} {owner : String}
    (hdebt : (t.commit fresh now journal).1.InDebt fund owner) :
    t.InDebt fund owner ∨ (t.commit fresh now journal).2 = .ok () ∧
      ∃ units, units < 0 ∧ Write.credit fund owner units ∈ journal := by
  rcases h : t.commit fresh now journal with ⟨t', v | u⟩ <;> rw [h] at hdebt
  · rw [commit_error keyed.ids h] at hdebt
    obtain ⟨e, he, hdebt⟩ := hdebt
    exact Or.inl ⟨e, (List.mem_filter.mp he).1, hdebt⟩
  · have hall := applyAll_keeps (P := fun t'' => t''.Keyed ∧ (t''.InDebt fund owner →
      t.InDebt fund owner ∨ ∃ units, units < 0 ∧ Write.credit fund owner units ∈ journal))
      ⟨keyed, Or.inl⟩ ?_ h
    · exact (hall.2 hdebt).imp_right fun hcredit => ⟨rfl, hcredit⟩
    · rintro n w _ _ _ hw ⟨keyed, hbefore⟩ happly
      refine ⟨keyed.apply happly, fun hdebt => ?_⟩
      rcases inDebt_apply keyed happly hdebt with hdebt | ⟨units, hnegative, rfl⟩
      · exact hbefore hdebt
      · exact Or.inr ⟨units, hnegative, List.mem_of_getElem? hw⟩

end Commit

end UnitLedger.Memory.Tables
