import UnitLedger.Proofs.Memory.Records
import UnitLedger.Proofs.Memory.Undo

/-!
  UnitLedger.Proofs.Memory.Settlement — what the commits of the services do.

  The services commit two kinds of journals: one that founds a fund and one that moves units. Each
  either leaves the tables as they are or turns them into `founded` or `settled` ones, and
  `commit_founding` and `commit_move` say exactly when. Both kinds of change keep well-formed tables
  well-formed.
-/

namespace UnitLedger.Memory

def Journal.founding (f : Fund) (e : Entry) : Journal := [.fund f, .entry e]

def Journal.move (source : Uuid) (r : Transfer) : Journal :=
  [.debit source r.units, .credit r.fund r.target r.units, .transfer r]

namespace Tables

variable {t t' : Tables} {fresh : Nat → Uuid} {freshId : Uuid} {now : Instant}

/-! ## Founding a fund -/

def founded (t : Tables) (f : Fund) (e : Entry) : Tables :=
  { t with funds := t.funds ++ [f] }.putEntry e

theorem hasActive_of_no_fund (wf : t.WellFormed) {fund : Uuid} (h : t.hasFund fund = false)
    (owner : String) : t.hasActive fund owner = false := by
  rw [← Bool.not_eq_true, wf.hasActive_iff]
  rintro ⟨e, he, rfl, -⟩
  rw [wf.funds e he] at h
  cases h

theorem commit_founding (fresh : Nat → Uuid) (now : Instant) (wf : t.WellFormed) {f : Fund}
    {e : Entry} (hfund : e.fund = f.id) (hunits : 0 ≤ e.units) :
    t.commit fresh now (Journal.founding f e) =
      if t.hasFund f.id then (t, .error (.unique Constraint.fundId))
      else if t.hasFundName f.name then (t, .error (.unique Constraint.fundName))
      else (t.founded f e, .ok ()) := by
  simp only [Journal.founding, commit, applyAll, apply, applyFund]
  by_cases hid : t.hasFund f.id = true
  · simp [hid]
  · by_cases hname : t.hasFundName f.name = true
    · simp [hid, hname]
    · have hhas : { t with funds := t.funds ++ [f] }.hasFund e.fund = true :=
        hasFund_iff.mpr ⟨f, by simp, hfund.symm⟩
      have hnew : { t with funds := t.funds ++ [f] }.hasActive e.fund e.owner = false :=
        hasActive_of_no_fund wf (by rw [hfund]; simpa using hid) e.owner
      simp [hid, hname, applyEntry, hhas, hnew, Int.not_lt.mpr hunits, founded]

/-- The rows of the tables and the new entry. -/
theorem founded_entries {f : Fund} {e : Entry} (h : e.id ∉ t.entryIds) :
    (t.founded f e).entries = t.entries ++ [e] :=
  putEntry_entries (t := { t with funds := t.funds ++ [f] }) fun _ hd hde =>
    h (hde ▸ List.mem_map_of_mem hd)

theorem WellFormed.founded (wf : t.WellFormed) {f : Fund} {e : Entry} (hfund : e.fund = f.id)
    (hactive : e.isActive = true) (hunits : 0 ≤ e.units) (hid : e.id ∉ t.entryIds)
    (hnew : t.hasFund f.id = false) : (t.founded f e).WellFormed := by
  have hadded : { t with funds := t.funds ++ [f] }.WellFormed := by
    refine ⟨wf.ids, wf.holders, wf.active, ?_, wf.units⟩
    intro d hd
    obtain ⟨g, hg, hgd⟩ := hasFund_iff.mp (wf.funds d hd)
    exact hasFund_iff.mpr ⟨g, by simp [hg], hgd⟩
  refine hadded.putEntry ?_ ?_ hactive ?_ hunits
  · exact fun d hd hde => hid (hde ▸ List.mem_map_of_mem hd)
  · exact hasActive_of_no_fund wf (hfund ▸ hnew) e.owner
  · exact hasFund_iff.mpr ⟨f, by simp, hfund.symm⟩

/-! ## Moving units -/

/-- The tables after a credit; an owner without an entry gets one with this id. -/
def credited (t : Tables) (freshId : Uuid) (now : Instant) (fund : Uuid) (owner : String)
    (units : Int) : Tables :=
  match t.activeOf fund owner with
  | some d => t.setUnits d.id (d.units + units) now
  | none =>
    t.putEntry { id := freshId, fund, owner, units, acquiredAt := now, updatedAt := now,
                 state := .active }

def settled (t : Tables) (freshId : Uuid) (now : Instant) (e : Entry) (r : Transfer) : Tables :=
  let t := (t.setUnits e.id (e.units - r.units) now).credited freshId now r.fund r.target r.units
  { t with transfers := t.transfers ++ [r] }

/-- The entry belongs to the record's source and can pay, the target can take the units, and the
record's key is not used. -/
structure Admits (t : Tables) (e : Entry) (r : Transfer) : Prop where
  mem : e ∈ t.entries
  fund : e.fund = r.fund
  owner : e.owner = r.source
  differ : r.source ≠ r.target
  positive : 0 < r.units
  covered : r.units ≤ e.units
  fits : Units.Fits (e.units - r.units)
  room : ∀ d, t.activeOf r.fund r.target = some d → Units.Fits (d.units + r.units)
  key : ∀ k, r.key = some k → t.findByKey k = none

theorem credited_transfers (fund : Uuid) (owner : String) (units : Int) :
    (t.credited freshId now fund owner units).transfers = t.transfers := by
  unfold credited
  split <;> rfl

theorem hasFund_credited (fund : Uuid) (owner : String) (units : Int) (id : Uuid) :
    (t.credited freshId now fund owner units).hasFund id = t.hasFund id := by
  unfold credited
  split <;> rfl

@[simp] theorem settled_funds (e : Entry) (r : Transfer) :
    (t.settled freshId now e r).funds = t.funds := by
  simp only [settled, credited]
  split <;> rfl

@[simp] theorem settled_transfers (e : Entry) (r : Transfer) :
    (t.settled freshId now e r).transfers = t.transfers ++ [r] := by
  simp [settled, credited_transfers, setUnits]

theorem WellFormed.credited (wf : t.WellFormed) {fund : Uuid} {owner : String} {units : Int}
    (hid : freshId ∉ t.entryIds) (hfund : t.hasFund fund = true) (hunits : 0 ≤ units) :
    (t.credited freshId now fund owner units).WellFormed := by
  unfold Tables.credited
  split
  · rename_i d hd
    have := wf.units d (mem_of_activeOf hd).1
    exact wf.setUnits (by omega)
  · rename_i hnone
    refine wf.putEntry ?_ ?_ rfl hfund hunits
    · intro d hd hde
      exact hid (List.mem_map.mpr ⟨d, hd, hde⟩)
    · simp [hasActive, hnone]

theorem WellFormed.settled (wf : t.WellFormed) {e : Entry} {r : Transfer} (h : t.Admits e r)
    (hid : freshId ∉ t.entryIds) : (t.settled freshId now e r).WellFormed := by
  have hcovered := h.covered
  have hpaid : (t.setUnits e.id (e.units - r.units) now).WellFormed := wf.setUnits (by omega)
  have hfund : (t.setUnits e.id (e.units - r.units) now).hasFund r.fund = true := by
    rw [hasFund_setUnits, ← h.fund]
    exact wf.funds e h.mem
  have hdone : ((t.setUnits e.id (e.units - r.units) now).credited freshId now r.fund r.target
      r.units).WellFormed :=
    hpaid.credited (by rwa [entryIds_setUnits]) hfund (Int.le_of_lt h.positive)
  exact ⟨hdone.ids, hdone.holders, hdone.active, hdone.funds, hdone.units⟩

def newcomer (freshId : Uuid) (now : Instant) (r : Transfer) : Entry where
  id := freshId
  fund := r.fund
  owner := r.target
  units := r.units
  acquiredAt := now
  updatedAt := now
  state := .active

def adjusted (now : Instant) (e : Entry) (r : Transfer) (d : Entry) : Entry :=
  if d.id = e.id then repriced (d.units - r.units) now d
  else if d.fund = r.fund ∧ d.owner = r.target then repriced (d.units + r.units) now d
  else d

@[simp] theorem adjusted_id (e : Entry) (r : Transfer) (d : Entry) :
    (adjusted now e r d).id = d.id := by
  unfold adjusted
  repeat' split
  all_goals rfl

@[simp] theorem adjusted_fund (e : Entry) (r : Transfer) (d : Entry) :
    (adjusted now e r d).fund = d.fund := by
  unfold adjusted
  repeat' split
  all_goals rfl

@[simp] theorem adjusted_owner (e : Entry) (r : Transfer) (d : Entry) :
    (adjusted now e r d).owner = d.owner := by
  unfold adjusted
  repeat' split
  all_goals rfl

@[simp] theorem adjusted_isActive (e : Entry) (r : Transfer) (d : Entry) :
    (adjusted now e r d).isActive = d.isActive := by
  unfold adjusted
  repeat' split
  all_goals rfl

/-- Only the debited entry loses units. -/
theorem adjusted_units_ge {e : Entry} {r : Transfer} {d : Entry} (h : d.id ≠ e.id)
    (hunits : 0 < r.units) : d.units ≤ (adjusted now e r d).units := by
  unfold adjusted
  rw [if_neg h]
  split
  · simp only [repriced]
    omega
  · exact Int.le_refl _

/-- The rows after the units of a record have left the entry. -/
theorem settled_entries (wf : t.WellFormed) {e : Entry} {r : Transfer} (h : t.Admits e r)
    (hid : freshId ∉ t.entryIds) :
    (t.settled freshId now e r).entries =
      t.entries.map (adjusted now e r) ++
        if t.hasActive r.fund r.target then [] else [newcomer freshId now r] := by
  have hsource : ∀ d ∈ t.entries, d.id = e.id → d = e := fun d hd => wf.eq_of_id hd h.mem
  have hpaid := activeOf_setUnits (t := t) e.id (e.units - r.units) now r.fund r.target
  cases htarget : t.activeOf r.fund r.target with
  | some d =>
    obtain ⟨hd, hdf, hdo, -⟩ := mem_of_activeOf htarget
    have hne : d.id ≠ e.id := by
      intro hde
      have howner := h.owner
      rw [hsource d hd hde] at hdo
      exact h.differ (howner.symm.trans hdo)
    simp only [htarget, Option.map_some, if_neg hne] at hpaid
    simp only [settled, credited, hpaid, hasActive, htarget, Option.isSome_some, if_true,
      List.append_nil]
    simp only [setUnits, List.map_map]
    refine List.map_congr_left fun x hx => ?_
    simp only [Function.comp_apply, beq_iff_eq, adjusted]
    by_cases hxe : x.id = e.id
    · obtain rfl := hsource x hx hxe
      simp [Ne.symm hne, repriced]
    · by_cases hxd : x.id = d.id
      · obtain rfl := wf.eq_of_id hx hd hxd
        simp [hne, hdf, hdo, repriced]
      · have hx' : ¬ (x.fund = r.fund ∧ x.owner = r.target) := by
          rintro ⟨hf, ho⟩
          rw [wf.eq_of_holder hx hd (hf.trans hdf.symm) (ho.trans hdo.symm)] at hxd
          exact hxd rfl
        simp [hxe, hxd, hx']
  | none =>
    have hnone := wf.activeOf_eq_none.mp htarget
    simp only [htarget, Option.map_none] at hpaid
    simp only [settled, credited, hpaid, hasActive, htarget, Option.isSome_none,
      Bool.false_eq_true, if_false]
    have hnew : ∀ d ∈ (t.setUnits e.id (e.units - r.units) now).entries, d.id ≠ freshId := by
      intro d hd hde
      rw [← entryIds_setUnits e.id (e.units - r.units) now] at hid
      exact hid (List.mem_map.mpr ⟨d, hd, hde⟩)
    rw [putEntry_entries hnew]
    congr 1
    simp only [setUnits]
    refine List.map_congr_left fun x hx => ?_
    simp only [beq_iff_eq, adjusted]
    by_cases hxe : x.id = e.id
    · obtain rfl := hsource x hx hxe
      simp [repriced]
    · simp [hxe, hnone x hx]

theorem hasActive_settled (wf : t.WellFormed) {e : Entry} {r : Transfer} (h : t.Admits e r)
    (hid : freshId ∉ t.entryIds) {fund : Uuid} {owner : String} :
    (t.settled freshId now e r).hasActive fund owner = true ↔
      t.hasActive fund owner = true ∨ (fund = r.fund ∧ owner = r.target) := by
  rw [(wf.settled h hid).hasActive_iff, settled_entries wf h hid]
  constructor
  · rintro ⟨x, hx, rfl, rfl⟩
    rcases List.mem_append.mp hx with hx | hx
    · obtain ⟨d, hd, rfl⟩ := List.mem_map.mp hx
      exact Or.inl (wf.hasActive_iff.mpr ⟨d, hd, by simp, by simp⟩)
    · split at hx
      · cases hx
      · obtain rfl := List.mem_singleton.mp hx
        exact Or.inr ⟨rfl, rfl⟩
  · have hold : ∀ f o, t.hasActive f o = true → ∃ x ∈ t.entries.map (adjusted now e r) ++
        (if t.hasActive r.fund r.target then [] else [newcomer freshId now r]),
        x.fund = f ∧ x.owner = o := by
      intro f o hfo
      obtain ⟨d, hd, hdf, hdo⟩ := wf.hasActive_iff.mp hfo
      exact ⟨adjusted now e r d, List.mem_append_left _ (List.mem_map_of_mem hd), by simpa,
        by simpa⟩
    rintro (hfo | ⟨rfl, rfl⟩)
    · exact hold fund owner hfo
    · by_cases htarget : t.hasActive r.fund r.target = true
      · exact hold _ _ htarget
      · exact ⟨newcomer freshId now r, by simp [htarget], rfl, rfl⟩

/-! ## When a move is committed -/

theorem applyDebit_ok {id : Uuid} {units : Int} {undo : Undo}
    (h : t.applyDebit now id units = .ok (t', undo)) :
    ∃ e ∈ t.entries, e.id = id ∧ 0 ≤ e.units - units ∧ Units.Fits (e.units - units) ∧
      t' = t.setUnits e.id (e.units - units) now := by
  have happlied : Applied t id now (.debit id units) t' undo := applied_debit h
  cases happlied with
  | debit mem active covered fits => exact ⟨_, mem, rfl, covered, fits, rfl⟩

theorem applyCredit_ok {fund : Uuid} {owner : String} {units : Int} {undo : Undo}
    (h : t.applyCredit freshId now fund owner units = .ok (t', undo)) :
    t' = t.credited freshId now fund owner units ∧
      ∀ d, t.activeOf fund owner = some d → Units.Fits (d.units + units) := by
  unfold credited
  cases applied_credit h with
  | credit found fits =>
    rw [found]
    exact ⟨rfl, fun d hd => by cases hd; exact fits⟩
  | creates free =>
    rw [free]
    exact ⟨rfl, fun d hd => by cases hd⟩

theorem applyTransfer_ok {r : Transfer} {undo : Undo} (h : t.applyTransfer r = .ok (t', undo)) :
    t' = { t with transfers := t.transfers ++ [r] } ∧ r.source ≠ r.target ∧ 0 < r.units ∧
      ∀ k, r.key = some k → t.findByKey k = none := by
  have happly : t.apply r.id r.transferredAt (.transfer r) = .ok (t', undo) := h
  cases applied happly with
  | transfer differ positive fund source target newKey => exact ⟨rfl, differ, positive, newKey⟩

theorem applyTransfer_keyTaken {r : Transfer}
    (h : t.applyTransfer r = .error (.unique Constraint.idempotencyKey)) :
    ∃ k, r.key = some k ∧ (t.findByKey k).isSome := by
  unfold applyTransfer at h
  iterate 5
    split at h
    · simp [Violation.ownersDiffer, Violation.transferUnits] at h
  split at h
  · rename_i hkey
    cases hk : r.key with
    | none => simp [hk] at hkey
    | some k => exact ⟨k, rfl, by simpa [hk] using hkey⟩
  · cases h

theorem findByKey_settled_of_none {e : Entry} {r : Transfer} {k : Uuid} (hk : r.key ≠ some k) :
    (t.settled freshId now e r).findByKey k = t.findByKey k := by
  simp [findByKey, hk]

/-- A move that is committed was admitted. -/
theorem admits_of_commit_move (wf : t.WellFormed) {source : Uuid} {r : Transfer}
    (hroot : ∀ e ∈ t.entries, e.id = source → e.fund = r.fund ∧ e.owner = r.source)
    (h : t.commit fresh now (Journal.move source r) = (t', .ok ())) :
    ∃ e, e.id = source ∧ t.Admits e r ∧ t' = t.settled (fresh 1) now e r := by
  simp only [Journal.move, commit, applyAll, apply] at h
  split at h
  · rename_i paid _ hdebit
    obtain ⟨e, he, rfl, hcovered, hfits, rfl⟩ := applyDebit_ok hdebit
    obtain ⟨hfund, howner⟩ := hroot e he rfl
    split at h
    · rename_i _ _ hcredit
      obtain ⟨rfl, hroom⟩ := applyCredit_ok hcredit
      split at h
      · rename_i _ _ htransfer
        obtain ⟨rfl, hdiffer, hpositive, hkey⟩ := applyTransfer_ok htransfer
        cases h
        refine ⟨e, rfl, ⟨he, hfund, howner, hdiffer, hpositive, by omega, hfits, ?_, ?_⟩, rfl⟩
        · intro d hd
          obtain ⟨hdm, -, hdo, -⟩ := mem_of_activeOf hd
          have hne : d.id ≠ e.id := fun hde =>
            hdiffer (howner.symm.trans (wf.eq_of_id hdm he hde ▸ hdo))
          exact hroom d (by rw [activeOf_setUnits, hd, Option.map_some, if_neg hne])
        · intro k hk
          have := hkey k hk
          simpa [findByKey, credited_transfers, setUnits] using this
      · cases h
    · cases h
  · cases h

/-- A move that is admitted is committed. -/
theorem commit_move_of_admits (wf : t.WellFormed) {e : Entry} {r : Transfer} (h : t.Admits e r)
    (hid : fresh 1 ∉ t.entryIds) :
    t.commit fresh now (Journal.move e.id r) = (t.settled (fresh 1) now e r, .ok ()) := by
  have hcovered := h.covered
  have hfound : (t.entryById e.id).filter (·.isActive) = some e := by
    rw [wf.entryById_filter, wf.entryById_eq_some]
    exact ⟨h.mem, rfl⟩
  have hdebit : t.applyDebit now e.id r.units =
      .ok (t.setUnits e.id (e.units - r.units) now, .units e.id e.units e.updatedAt) := by
    have hrest : (some (e.units - r.units)).filter (fun n => decide (0 ≤ n)) =
        some (e.units - r.units) :=
      Option.filter_eq_some_iff.mpr ⟨rfl, decide_eq_true (by omega)⟩
    simp only [applyDebit, hfound, Units.sub?, if_pos h.fits, hrest]
  have hpaid : (t.setUnits e.id (e.units - r.units) now).WellFormed := wf.setUnits (by omega)
  have hfund : (t.setUnits e.id (e.units - r.units) now).hasFund r.fund = true := by
    rw [hasFund_setUnits, ← h.fund]
    exact wf.funds e h.mem
  obtain ⟨undo, hcredit⟩ : ∃ undo, (t.setUnits e.id (e.units - r.units) now).applyCredit
      (fresh 1) now r.fund r.target r.units =
      .ok ((t.setUnits e.id (e.units - r.units) now).credited (fresh 1) now r.fund r.target r.units,
        undo) := by
    unfold applyCredit credited
    cases htarget : (t.setUnits e.id (e.units - r.units) now).activeOf r.fund r.target with
    | none => simp [hfund]
    | some d =>
      have hfits : Units.Fits (d.units + r.units) := by
        rw [activeOf_setUnits] at htarget
        obtain ⟨d', hd', rfl⟩ := Option.map_eq_some_iff.mp htarget
        obtain ⟨hdm, -, hdo, -⟩ := mem_of_activeOf hd'
        have hne : d'.id ≠ e.id := fun hde =>
          h.differ (h.owner.symm.trans (wf.eq_of_id hdm h.mem hde ▸ hdo))
        rw [if_neg hne]
        exact h.room d' hd'
      simp [Units.add?, hfits]
  have hsource : (t.settled (fresh 1) now e r).hasActive r.fund r.source = true :=
    (hasActive_settled wf h hid).mpr (Or.inl (wf.hasActive_iff.mpr ⟨e, h.mem, h.fund, h.owner⟩))
  have htarget : (t.settled (fresh 1) now e r).hasActive r.fund r.target = true :=
    (hasActive_settled wf h hid).mpr (Or.inr ⟨rfl, rfl⟩)
  have htransfer : ((t.setUnits e.id (e.units - r.units) now).credited (fresh 1) now r.fund
      r.target r.units).applyTransfer r = .ok (t.settled (fresh 1) now e r, .transfer) := by
    have hkey : ∀ k, r.key = some k → ((t.setUnits e.id (e.units - r.units) now).credited (fresh 1)
        now r.fund r.target r.units).findByKey k = none := by
      intro k hk
      have := h.key k hk
      simpa [findByKey, credited_transfers, setUnits] using this
    have hany : (r.key.any fun k => (((t.setUnits e.id (e.units - r.units) now).credited (fresh 1)
        now r.fund r.target r.units).findByKey k).isSome) = false := by
      cases hk : r.key with
      | none => rfl
      | some k => simp [hkey k hk]
    have hs : ((t.setUnits e.id (e.units - r.units) now).credited (fresh 1) now r.fund
      r.target r.units).hasActive r.fund r.source = true := hsource
    have ht : ((t.setUnits e.id (e.units - r.units) now).credited (fresh 1) now r.fund
      r.target r.units).hasActive r.fund r.target = true := htarget
    have hpositive := h.positive
    simp [applyTransfer, h.differ, Int.not_le.mpr hpositive, hasFund_credited, hfund, hs, ht, hany,
      settled]
  simp only [Journal.move, commit, applyAll, apply, hdebit, hcredit, htransfer]

/-- What becomes of a move at its commit. -/
theorem commit_move (fresh : Nat → Uuid) (now : Instant) (wf : t.WellFormed) {source : Uuid}
    {r : Transfer} (hroot : ∀ e ∈ t.entries, e.id = source → e.fund = r.fund ∧ e.owner = r.source)
    (hid : fresh 1 ∉ t.entryIds) :
    (∃ e, e.id = source ∧ t.Admits e r ∧
      t.commit fresh now (Journal.move source r) = (t.settled (fresh 1) now e r, .ok ())) ∨
    (∃ v, t.commit fresh now (Journal.move source r) = (t, .error v)) := by
  rcases h : t.commit fresh now (Journal.move source r) with ⟨t', v | u⟩
  · have hnew : ∀ id ∈ Journal.created fresh (Journal.move source r), id ∉ t.entryIds := by
      simpa [Journal.move, Journal.created, Write.created] using hid
    exact Or.inr ⟨v, by rw [commit_error_of_new wf.ids hnew h]⟩
  · obtain ⟨e, he, hadmits, rfl⟩ := admits_of_commit_move wf hroot h
    exact Or.inl ⟨e, he, hadmits, rfl⟩

/-- The record of a move out of an entry is appended exactly if its key is free. -/
theorem addTransfer_move (wf : t.WellFormed) (source : Uuid) {r : Transfer}
    (hdiffer : r.source ≠ r.target) (hpositive : 0 < r.units)
    (hsource : t.hasActive r.fund r.source = true) :
    Journal.addTransfer [.debit source r.units, .credit r.fund r.target r.units] t r =
      if r.key.any fun k => (t.findByKey k).isSome then .error (.unique Constraint.idempotencyKey)
      else .ok (Journal.move source r) := by
  have hfund : t.hasFund r.fund = true := by
    obtain ⟨e, he, hfund, -⟩ := wf.hasActive_iff.mp hsource
    exact hfund ▸ wf.funds e he
  have htarget : Journal.credits [.debit source r.units, .credit r.fund r.target r.units] r.fund
      r.target = true := by
    simp [Journal.credits]
  have hkey : Journal.keyUsed [.debit source r.units, .credit r.fund r.target r.units] t =
      fun k => (t.findByKey k).isSome := by
    funext k
    simp [Journal.keyUsed, Journal.recordOf]
  simp [Journal.addTransfer, hdiffer, Int.not_le.mpr hpositive, Journal.knowsFund, hfund,
    Journal.knowsOwner, hsource, htarget, hkey, Journal.move]

/-! ## The list of transfers

What a commit does to this list does not depend on the ids of the entries. -/

/-- Only the refusal of a record names the idempotency key. -/
theorem apply_keyTaken {write : Write} (hw : ∀ r, write ≠ .transfer r) :
    t.apply freshId now write ≠ .error (.unique Constraint.idempotencyKey) := by
  intro h
  cases write with
  | transfer r => exact absurd rfl (hw r)
  | fund f =>
    simp only [apply, applyFund] at h
    repeat' split at h
    all_goals simp [Constraint.fundId, Constraint.fundName, Constraint.idempotencyKey] at h
  | entry e =>
    simp only [apply, applyEntry] at h
    repeat' split at h
    all_goals simp [Constraint.activeOwner, Constraint.idempotencyKey, Violation.entryUnits] at h
  | debit id units =>
    simp only [apply, applyDebit] at h
    repeat' split at h
    all_goals simp [Violation.entryUnits] at h
  | credit fund owner units =>
    simp only [apply, applyCredit] at h
    repeat' split at h
    all_goals simp [Violation.entryUnits] at h

theorem commit_founding_transfers (f : Fund) (e : Entry) :
    (t.commit fresh now (Journal.founding f e)).1.transfers = t.transfers := by
  rw [transfers_commit]
  split
  · exact List.append_nil _
  · rfl

/-- The key of a committed move was not used, and if a move is refused for its key, this key is used. -/
theorem commit_move_key (fresh : Nat → Uuid) (now : Instant) (source : Uuid) (r : Transfer) :
    match (t.commit fresh now (Journal.move source r)).2 with
    | .ok () => ∀ k, r.key = some k → t.findByKey k = none
    | .error v => v = .unique Constraint.idempotencyKey →
      ∃ k, r.key = some k ∧ (t.findByKey k).isSome = true := by
  simp only [Journal.move, commit, applyAll]
  cases h₁ : t.apply (fresh 0) now (.debit source r.units) with
  | error v =>
    rintro rfl
    exact absurd h₁ (apply_keyTaken (by simp))
  | ok done₁ =>
    obtain ⟨t₁, undo₁⟩ := done₁
    cases h₂ : t₁.apply (fresh 1) now (.credit r.fund r.target r.units) with
    | error v =>
      simp only [h₂]
      rintro rfl
      exact absurd h₂ (apply_keyTaken (by simp))
    | ok done₂ =>
      obtain ⟨t₂, undo₂⟩ := done₂
      have hkeys : ∀ k, t₂.findByKey k = t.findByKey k := by
        simp [findByKey, transfers_apply h₂, transfers_apply h₁, Write.record?]
      cases h₃ : t₂.apply (fresh 2) now (.transfer r) with
      | error v =>
        simp only [h₂, h₃]
        rintro rfl
        obtain ⟨k, hk, hused⟩ := applyTransfer_keyTaken h₃
        exact ⟨k, hk, hkeys k ▸ hused⟩
      | ok done₃ =>
        obtain ⟨-, -, -, hkey⟩ := applyTransfer_ok h₃
        simp only [h₂, h₃]
        exact fun k hk => hkeys k ▸ hkey k hk

/-- A committed move adds its record, whose key was not used; a refused one adds nothing, and if it is
refused for its key, this key is used. -/
theorem commit_move_transfers (fresh : Nat → Uuid) (now : Instant) (source : Uuid) (r : Transfer) :
    ((t.commit fresh now (Journal.move source r)).2 = .ok () ∧
      (t.commit fresh now (Journal.move source r)).1.transfers = t.transfers ++ [r] ∧
      ∀ k, r.key = some k → t.findByKey k = none) ∨
    (∃ v, (t.commit fresh now (Journal.move source r)).2 = .error v ∧
      (t.commit fresh now (Journal.move source r)).1.transfers = t.transfers ∧
      (v = .unique Constraint.idempotencyKey →
        ∃ k, r.key = some k ∧ (t.findByKey k).isSome = true)) := by
  have hrecords := transfers_commit fresh now t (Journal.move source r)
  have hkey := commit_move_key (t := t) fresh now source r
  cases hresult : (t.commit fresh now (Journal.move source r)).2 with
  | ok u =>
    rw [hresult] at hrecords hkey
    exact Or.inl ⟨rfl, hrecords, hkey⟩
  | error v =>
    rw [hresult] at hrecords hkey
    exact Or.inr ⟨v, rfl, hrecords, hkey⟩

end Tables

end UnitLedger.Memory
