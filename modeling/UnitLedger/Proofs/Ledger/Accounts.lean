import Mathlib.Algebra.BigOperators.Group.List.Basic
import Mathlib.Algebra.Order.BigOperators.Group.List
import Mathlib.Algebra.Order.Group.Int
import Mathlib.Algebra.Order.Ring.Int
import UnitLedger.Proofs.Memory.Settlement

/-!
  UnitLedger.Proofs.Ledger.Accounts — the entries of a fund against its transfers.

  The records of a fund tell who holds what: the first owner begins with all units, and each record
  moves some. `Accounts` says that the entries tell the same, that the records never took from anyone
  what they did not have, and that the entries always sum to the fund's units. Founding a fund opens
  its accounts (`Accounts.opened`), and both kinds of commit keep those of every fund
  (`Accounts.founded`, `Accounts.settled`).
-/

namespace UnitLedger.Ledger

open Memory (Tables)

def received (fund : Uuid) (owner : String) (rs : List Transfer) : Int :=
  ((rs.filter fun r => r.fund == fund && r.target == owner).map (·.units)).sum

def sent (fund : Uuid) (owner : String) (rs : List Transfer) : Int :=
  ((rs.filter fun r => r.fund == fund && r.source == owner).map (·.units)).sum

/-- What the owner holds after the records, if `first` had all units of the fund before them. -/
def holding (f : Fund) (first : String) (rs : List Transfer) (owner : String) : Int :=
  (if owner = first then f.totalUnits else 0) + received f.id owner rs - sent f.id owner rs

def entriesOf (t : Tables) (fund : Uuid) : List Entry :=
  t.entries.filter fun e => e.fund == fund && e.isActive

def circulating (t : Tables) (fund : Uuid) : Int := ((entriesOf t fund).map (·.units)).sum

def Recorded (t : Tables) : Prop :=
  ∀ r ∈ t.transfers, t.hasFund r.fund = true ∧ t.hasActive r.fund r.source = true

structure Accounts (t : Tables) (f : Fund) (first : String) : Prop where
  holders : ∀ owner, t.hasActive f.id owner = true ↔
    owner = first ∨ ∃ r ∈ t.transfers, r.fund = f.id ∧ r.target = owner
  units : ∀ e ∈ t.entries, ∀ owner, e.isActiveOf f.id owner = true →
    e.units = holding f first t.transfers owner
  unique : ∀ e ∈ t.entries, ∀ d ∈ t.entries, ∀ owner, e.isActiveOf f.id owner = true →
    d.isActiveOf f.id owner = true → e = d
  covered : ∀ n owner, 0 ≤ holding f first (t.transfers.take n) owner ∧
    holding f first (t.transfers.take n) owner ≤ f.totalUnits
  total : circulating t f.id = f.totalUnits
  positive : 0 < f.totalUnits
  bounded : f.totalUnits ≤ Units.greatest

/-! ## Sums -/

section Sums

variable {f : Fund} {first : String} {rs : List Transfer} {owner : String}

theorem holding_append (r : Transfer) :
    holding f first (rs ++ [r]) owner = holding f first rs owner
      + (if r.fund = f.id ∧ r.target = owner then r.units else 0)
      - (if r.fund = f.id ∧ r.source = owner then r.units else 0) := by
  have hreceived : received f.id owner (rs ++ [r]) = received f.id owner rs
      + (if r.fund = f.id ∧ r.target = owner then r.units else 0) := by
    by_cases h : r.fund = f.id ∧ r.target = owner <;> simp [received, h]
  have hsent : sent f.id owner (rs ++ [r]) = sent f.id owner rs
      + (if r.fund = f.id ∧ r.source = owner then r.units else 0) := by
    by_cases h : r.fund = f.id ∧ r.source = owner <;> simp [sent, h]
  unfold holding
  rw [hreceived, hsent]
  omega

/-- Who was never moved anything and moved nothing holds nothing. -/
theorem holding_eq_zero (hfirst : owner ≠ first)
    (htarget : ∀ r ∈ rs, r.fund = f.id → r.target ≠ owner)
    (hsource : ∀ r ∈ rs, r.fund = f.id → r.source ≠ owner) : holding f first rs owner = 0 := by
  have hreceived : rs.filter (fun r => r.fund == f.id && r.target == owner) = [] := by
    refine List.filter_eq_nil_iff.mpr fun r hr => ?_
    simpa using htarget r hr
  have hsent : rs.filter (fun r => r.fund == f.id && r.source == owner) = [] := by
    refine List.filter_eq_nil_iff.mpr fun r hr => ?_
    simpa using hsource r hr
  simp [holding, received, sent, hreceived, hsent, hfirst]

/-- Before its first record all of a fund is its first owner's. -/
theorem holding_of_no_records (h : ∀ r ∈ rs, r.fund ≠ f.id) :
    holding f first rs owner = if owner = first then f.totalUnits else 0 := by
  have hreceived : rs.filter (fun r => r.fund == f.id && r.target == owner) = [] :=
    List.filter_eq_nil_iff.mpr fun r hr => by simp [h r hr]
  have hsent : rs.filter (fun r => r.fund == f.id && r.source == owner) = [] :=
    List.filter_eq_nil_iff.mpr fun r hr => by simp [h r hr]
  simp [holding, received, sent, hreceived, hsent]

end Sums

theorem mem_entriesOf {t : Tables} {fund : Uuid} {e : Entry} :
    e ∈ entriesOf t fund ↔ e ∈ t.entries ∧ e.fund = fund ∧ e.isActive = true := by
  simp [entriesOf]

/-- Nobody holds more than all. -/
theorem units_le_circulating {t : Tables} (wf : t.WellFormed) {fund : Uuid} {e : Entry}
    (he : e ∈ entriesOf t fund) : e.units ≤ circulating t fund := by
  refine List.single_le_sum ?_ _ (List.mem_map_of_mem he)
  intro n hn
  obtain ⟨d, hd, rfl⟩ := List.mem_map.mp hn
  exact wf.units d (mem_entriesOf.mp hd).1

/-- Two owners together hold no more than all. -/
theorem units_add_le_circulating {t : Tables} (wf : t.WellFormed) {fund : Uuid} {e d : Entry}
    (he : e ∈ entriesOf t fund) (hd : d ∈ entriesOf t fund) (hne : d ≠ e) :
    e.units + d.units ≤ circulating t fund := by
  have hsum := ((List.perm_cons_erase he).map (·.units)).sum_eq
  have hrest : d ∈ (entriesOf t fund).erase e := (List.mem_erase_of_ne hne).mpr hd
  have hle : d.units ≤ (((entriesOf t fund).erase e).map (·.units)).sum := by
    refine List.single_le_sum ?_ _ (List.mem_map_of_mem hrest)
    intro n hn
    obtain ⟨x, hx, rfl⟩ := List.mem_map.mp hn
    exact wf.units x (mem_entriesOf.mp (List.mem_of_mem_erase hx)).1
  rw [circulating, hsum, List.map_cons, List.sum_cons]
  omega

/-! ## What settling a record does to the entries of a fund -/

section Settled

variable {t : Tables} {freshId : Uuid} {now : Instant} {e : Entry} {r : Transfer} {fund : Uuid}

theorem entriesOf_nodup (wf : t.WellFormed) (fund : Uuid) : (entriesOf t fund).Nodup :=
  (List.Nodup.of_map _ wf.ids).filter _

theorem entriesOf_settled (wf : t.WellFormed) (h : t.Admits e r) (hid : freshId ∉ t.entryIds) :
    entriesOf (t.settled freshId now e r) fund =
      (entriesOf t fund).map (Tables.adjusted now e r) ++
        if r.fund = fund ∧ t.hasActive r.fund r.target = false
        then [Tables.newcomer freshId now r] else [] := by
  have hsame : ((fun d : Entry => d.fund == fund && d.isActive) ∘ Tables.adjusted now e r) =
      fun d => d.fund == fund && d.isActive := by
    funext d
    simp
  simp only [entriesOf, Tables.settled_entries wf h hid, List.filter_append, List.filter_map, hsame]
  congr 1
  by_cases htarget : t.hasActive r.fund r.target = true
  · simp [htarget]
  · have hactive : (Tables.newcomer freshId now r).isActive = true := rfl
    have hfund : (Tables.newcomer freshId now r).fund = r.fund := rfl
    by_cases hf : r.fund = fund
    · subst hf
      simp [htarget, hactive, hfund]
    · simp [htarget, hf, hactive, hfund]

/-- In another fund nothing changes. -/
theorem entriesOf_settled_ne (wf : t.WellFormed) (h : t.Admits e r) (hid : freshId ∉ t.entryIds)
    (hne : r.fund ≠ fund) : entriesOf (t.settled freshId now e r) fund = entriesOf t fund := by
  rw [entriesOf_settled wf h hid, if_neg (fun hand => hne hand.1), List.append_nil]
  refine (List.map_congr_left fun d hd => ?_).trans (List.map_id _)
  obtain ⟨hd, hfund, -⟩ := mem_entriesOf.mp hd
  have hsource : d.id ≠ e.id := by
    intro hde
    rw [wf.eq_of_id hd h.mem hde] at hfund
    exact hne (h.fund.symm.trans hfund)
  have htarget : ¬ (d.fund = r.fund ∧ d.owner = r.target) :=
    fun hand => hne (hand.1.symm.trans hfund)
  simp [Tables.adjusted, hsource, htarget]

/-- What leaves the source arrives at the target, so the sum stays. -/
theorem circulating_settled (wf : t.WellFormed) (h : t.Admits e r) (hid : freshId ∉ t.entryIds) :
    circulating (t.settled freshId now e r) fund = circulating t fund := by
  by_cases hne : r.fund ≠ fund
  · simp only [circulating, entriesOf_settled_ne wf h hid hne]
  · rw [not_not] at hne
    subst hne
    have hmem : e ∈ entriesOf t r.fund := mem_entriesOf.mpr ⟨h.mem, h.fund, wf.active e h.mem⟩
    have hnodup := entriesOf_nodup wf r.fund
    have hcount : (entriesOf t r.fund).count e = 1 := List.count_eq_one_of_mem hnodup hmem
    simp only [circulating, entriesOf_settled wf h hid, List.map_append, List.sum_append,
      List.map_map]
    cases htarget : t.activeOf r.fund r.target with
    | some d =>
      obtain ⟨hd, hdf, hdo, hda⟩ := Tables.mem_of_activeOf htarget
      have hdmem : d ∈ entriesOf t r.fund := mem_entriesOf.mpr ⟨hd, hdf, hda⟩
      have hdcount : (entriesOf t r.fund).count d = 1 := List.count_eq_one_of_mem hnodup hdmem
      have hde : d ≠ e := by
        rintro rfl
        exact h.differ (h.owner.symm.trans hdo)
      have hunits : (entriesOf t r.fund).map ((·.units) ∘ Tables.adjusted now e r) =
          (entriesOf t r.fund).map fun x => if x = e then x.units - r.units
            else if x = d then x.units + r.units else x.units := by
        refine List.map_congr_left fun x hx => ?_
        have hxm := (mem_entriesOf.mp hx).1
        simp only [Function.comp_apply, Tables.adjusted]
        by_cases hxe : x = e
        · simp [hxe, Tables.repriced]
        · have hxid : x.id ≠ e.id := fun hid => hxe (wf.eq_of_id hxm h.mem hid)
          by_cases hxd : x = d
          · subst hxd
            simp [hxe, hxid, hdf, hdo, Tables.repriced]
          · have hxt : ¬ (x.fund = r.fund ∧ x.owner = r.target) := fun hand =>
              hxd (wf.eq_of_holder hxm hd (hand.1.trans hdf.symm) (hand.2.trans hdo.symm))
            simp [hxe, hxd, hxid, hxt]
      rw [hunits, List.sum_map_ite_eq, List.sum_map_ite_eq, hcount, hdcount]
      simp [Tables.hasActive, htarget, Ne.symm hde]
    | none =>
      have hnone := wf.activeOf_eq_none.mp htarget
      have hunits : (entriesOf t r.fund).map ((·.units) ∘ Tables.adjusted now e r) =
          (entriesOf t r.fund).map fun x => if x = e then x.units - r.units else x.units := by
        refine List.map_congr_left fun x hx => ?_
        have hxm := (mem_entriesOf.mp hx).1
        simp only [Function.comp_apply, Tables.adjusted]
        by_cases hxe : x = e
        · simp [hxe, Tables.repriced]
        · have hxid : x.id ≠ e.id := fun hid => hxe (wf.eq_of_id hxm h.mem hid)
          simp [hxe, hxid, hnone x hxm]
      rw [hunits, List.sum_map_ite_eq, hcount]
      simp [Tables.hasActive, htarget, Tables.newcomer]

end Settled

/-! ## Keeping accounts -/

namespace Accounts

variable {t : Tables} {f : Fund} {first : String}

/-- The units of an owner, with or without an entry. -/
theorem within (acc : Accounts t f first) (owner : String) :
    0 ≤ holding f first t.transfers owner ∧ holding f first t.transfers owner ≤ f.totalUnits := by
  have := acc.covered t.transfers.length owner
  rwa [List.take_length] at this

/-- The first owner is known from the accounts. -/
theorem first_unique {first' : String} (acc : Accounts t f first) (acc' : Accounts t f first') :
    first = first' := by
  by_contra hne
  have hactive := (acc.holders first).mpr (Or.inl rfl)
  obtain ⟨e, he⟩ := Option.isSome_iff_exists.mp hactive
  obtain ⟨hmem, hfund, howner, ha⟩ := Tables.mem_of_activeOf he
  have hof := Tables.isActiveOf_iff.mpr ⟨hfund, howner, ha⟩
  have h := (acc.units e hmem first hof).symm.trans (acc'.units e hmem first hof)
  have := acc.positive
  simp only [holding, if_pos, if_neg hne] at h
  omega

/-- A new fund's only entry is its first owner's. -/
theorem opened (wf : t.WellFormed) (recorded : Recorded t) {e : Entry} (hfund : e.fund = f.id)
    (hactive : e.isActive = true) (hunits : e.units = f.totalUnits) (hid : e.id ∉ t.entryIds)
    (hnew : t.hasFund f.id = false) (hpositive : 0 < f.totalUnits)
    (hbounded : f.totalUnits ≤ Units.greatest) : Accounts (t.founded f e) f e.owner := by
  have wf' := wf.founded hfund hactive (by omega) hid hnew
  have hentries : ∀ d ∈ t.entries, d.fund ≠ f.id := by
    intro d hd hdf
    rw [← hdf, wf.funds d hd] at hnew
    cases hnew
  have htransfers : ∀ r ∈ t.transfers, r.fund ≠ f.id := by
    intro r hr hrf
    rw [← hrf, (recorded r hr).1] at hnew
    cases hnew
  have hrecords : (t.founded f e).transfers = t.transfers := rfl
  have honly : ∀ d ∈ (t.founded f e).entries, d.fund = f.id → d = e := by
    intro d hd hdf
    rw [Tables.founded_entries hid] at hd
    rcases List.mem_append.mp hd with hd | hd
    · exact absurd hdf (hentries d hd)
    · exact List.mem_singleton.mp hd
  have hmem : e ∈ (t.founded f e).entries := by simp [Tables.founded_entries hid]
  refine ⟨?_, ?_, ?_, ?_, ?_, hpositive, hbounded⟩
  · intro owner
    rw [wf'.hasActive_iff]
    constructor
    · rintro ⟨d, hd, hdf, rfl⟩
      exact Or.inl (by rw [honly d hd hdf])
    · rintro (rfl | ⟨r, hr, hrf, -⟩)
      · exact ⟨e, hmem, hfund, rfl⟩
      · exact absurd hrf (htransfers r hr)
  · intro d hd owner hof
    obtain ⟨hdf, rfl, -⟩ := Tables.isActiveOf_iff.mp hof
    rw [hrecords, holding_of_no_records htransfers, honly d hd hdf, if_pos rfl, hunits]
  · intro d hd d' hd' owner hof hof'
    rw [honly d hd (Tables.isActiveOf_iff.mp hof).1, honly d' hd' (Tables.isActiveOf_iff.mp hof').1]
  · intro n owner
    rw [hrecords, holding_of_no_records fun r hr => htransfers r (List.mem_of_mem_take hr)]
    split <;> omega
  · have hof : entriesOf (t.founded f e) f.id = [e] := by
      have hold : t.entries.filter (fun d => d.fund == f.id && d.isActive) = [] :=
        List.filter_eq_nil_iff.mpr fun d hd => by simp [hentries d hd]
      simp [entriesOf, Tables.founded_entries hid, List.filter_append, hold, hfund, hactive]
    simp [circulating, hof, hunits]

/-- Founding another fund leaves the accounts as they are. -/
theorem founded (acc : Accounts t f first) (wf : t.WellFormed) {g : Fund} {e : Entry}
    (hf : t.hasFund f.id = true) (hfund : e.fund = g.id) (hactive : e.isActive = true)
    (hunits : 0 ≤ e.units) (hid : e.id ∉ t.entryIds) (hnew : t.hasFund g.id = false) :
    Accounts (t.founded g e) f first := by
  have wf' := wf.founded hfund hactive hunits hid hnew
  have hne : e.fund ≠ f.id := by
    intro hef
    rw [← hfund, hef, hf] at hnew
    cases hnew
  have hold : ∀ d ∈ (t.founded g e).entries, d.fund = f.id → d ∈ t.entries := by
    intro d hd hdf
    rw [Tables.founded_entries hid] at hd
    rcases List.mem_append.mp hd with hd | hd
    · exact hd
    · exact absurd (List.mem_singleton.mp hd ▸ hdf) hne
  refine ⟨?_, ?_, ?_, acc.covered, ?_, acc.positive, acc.bounded⟩
  · intro owner
    refine Iff.trans ?_ (acc.holders owner)
    rw [wf'.hasActive_iff, wf.hasActive_iff]
    constructor
    · rintro ⟨d, hd, hdf, hdo⟩
      exact ⟨d, hold d hd hdf, hdf, hdo⟩
    · rintro ⟨d, hd, hdf, hdo⟩
      exact ⟨d, by simp [Tables.founded_entries hid, hd], hdf, hdo⟩
  · intro d hd owner hof
    exact acc.units d (hold d hd (Tables.isActiveOf_iff.mp hof).1) owner hof
  · intro d hd d' hd' owner hof hof'
    exact acc.unique d (hold d hd (Tables.isActiveOf_iff.mp hof).1) d'
      (hold d' hd' (Tables.isActiveOf_iff.mp hof').1) owner hof hof'
  · rw [← acc.total]
    simp [circulating, entriesOf, Tables.founded_entries hid, List.filter_append, hne]

/-- Where a source of the fund can pay, the target has room, for together they never hold more than
all units. -/
theorem admits (acc : Accounts t f first) (wf : t.WellFormed) {e : Entry} {r : Transfer}
    (hmem : e ∈ t.entries) (hfund : e.fund = f.id) (hrecord : r.fund = f.id)
    (howner : e.owner = r.source) (differ : r.source ≠ r.target) (positive : 0 < r.units)
    (covered : r.units ≤ e.units) (hfree : ∀ k, r.key = some k → t.findByKey k = none) :
    t.Admits e r := by
  have htotal := acc.total
  have hbounded := acc.bounded
  have hnonneg := wf.units e hmem
  have hmine : e ∈ entriesOf t f.id := mem_entriesOf.mpr ⟨hmem, hfund, wf.active e hmem⟩
  have hall := units_le_circulating wf hmine
  have hleast : Units.least ≤ 0 := by decide
  refine ⟨hmem, hfund.trans hrecord.symm, howner, differ, positive, covered,
    ⟨by omega, by omega⟩, ?_, hfree⟩
  -- The target has at most what is left of the fund besides the source.
  intro d hd
  obtain ⟨hdmem, hdf, hdo, hdact⟩ := Tables.mem_of_activeOf hd
  have hne : d ≠ e := by
    rintro rfl
    exact differ (howner.symm.trans hdo)
  have htwo := units_add_le_circulating wf hmine
    (mem_entriesOf.mpr ⟨hdmem, hdf.trans hrecord, hdact⟩) hne
  have hnonneg' := wf.units d hdmem
  exact ⟨by omega, by omega⟩

section Settled

variable {freshId : Uuid} {now : Instant} {e : Entry} {r : Transfer} {owner : String}

/-- The source of every record, and of one that is admitted, has an entry. -/
theorem sources (recorded : Recorded t) (wf : t.WellFormed) (h : t.Admits e r) :
    ∀ r' ∈ t.transfers ++ [r], t.hasActive r'.fund r'.source = true := by
  intro r' hr'
  rcases List.mem_append.mp hr' with hr' | hr'
  · exact (recorded r' hr').2
  · rw [List.mem_singleton.mp hr', wf.hasActive_iff]
    exact ⟨e, h.mem, h.fund, h.owner⟩

/-- So whoever has none, and gets nothing from the records, holds nothing after them. -/
theorem holding_of_inactive {rs : List Transfer}
    (hsources : ∀ r ∈ rs, t.hasActive r.fund r.source = true)
    (hno : ¬ (owner = first ∨ ∃ r ∈ rs, r.fund = f.id ∧ r.target = owner))
    (hinactive : t.hasActive f.id owner = false) : holding f first rs owner = 0 := by
  rw [not_or] at hno
  refine holding_eq_zero hno.1 ?_ ?_
  · exact fun r hr hf ho => hno.2 ⟨r, hr, hf, ho⟩
  · intro r hr hf ho
    have hactive := hsources r hr
    rw [hf, ho, hinactive] at hactive
    cases hactive

theorem holders_settled (acc : Accounts t f first) (wf : t.WellFormed) (h : t.Admits e r)
    (hid : freshId ∉ t.entryIds) (owner : String) :
    (t.settled freshId now e r).hasActive f.id owner = true ↔
      owner = first ∨ ∃ r' ∈ t.transfers ++ [r], r'.fund = f.id ∧ r'.target = owner := by
  rw [Tables.hasActive_settled wf h hid, acc.holders]
  simp only [List.mem_append, List.mem_singleton]
  constructor
  · rintro ((hfirst | ⟨r', hr', hand⟩) | ⟨hrf, hro⟩)
    · exact Or.inl hfirst
    · exact Or.inr ⟨r', Or.inl hr', hand⟩
    · exact Or.inr ⟨r, Or.inr rfl, hrf.symm, hro.symm⟩
  · rintro (hfirst | ⟨r', hr' | rfl, hand⟩)
    · exact Or.inl (Or.inl hfirst)
    · exact Or.inl (Or.inr ⟨r', hr', hand⟩)
    · exact Or.inr ⟨hand.1.symm, hand.2.symm⟩

/-- An entry that was there holds what the records say, the new one included. -/
theorem units_adjusted (acc : Accounts t f first) (wf : t.WellFormed) (h : t.Admits e r) {d : Entry}
    (hd : d ∈ t.entries) (hdf : d.fund = f.id) :
    (Tables.adjusted now e r d).units = holding f first (t.transfers ++ [r]) d.owner := by
  rw [holding_append, ← acc.units d hd d.owner (Tables.isActiveOf_iff.mpr ⟨hdf, rfl, wf.active d hd⟩)]
  by_cases hde : d.id = e.id
  · obtain rfl := wf.eq_of_id hd h.mem hde
    have htarget : ¬ (r.fund = f.id ∧ r.target = d.owner) := fun hand =>
      h.differ (h.owner.symm.trans hand.2.symm)
    rw [if_neg htarget, if_pos ⟨h.fund.symm.trans hdf, h.owner.symm⟩]
    simp [Tables.adjusted, Tables.repriced]
  · have hsource : ¬ (r.fund = f.id ∧ r.source = d.owner) := fun hand =>
      hde (congrArg Entry.id (wf.eq_of_holder hd h.mem
        (hdf.trans (hand.1.symm.trans h.fund.symm)) (hand.2.symm.trans h.owner.symm)))
    rw [if_neg hsource]
    by_cases htarget : d.fund = r.fund ∧ d.owner = r.target
    · rw [if_pos ⟨htarget.1.symm.trans hdf, htarget.2.symm⟩]
      simp [Tables.adjusted, hde, htarget, Tables.repriced]
    · rw [if_neg fun hand => htarget ⟨hdf.trans hand.1.symm, hand.2.symm⟩]
      simp [Tables.adjusted, hde, htarget]

/-- So does the entry of a target that had none. -/
theorem units_newcomer (acc : Accounts t f first) (recorded : Recorded t) (h : t.Admits e r)
    (hrf : r.fund = f.id) (hinactive : t.hasActive f.id r.target = false) :
    r.units = holding f first (t.transfers ++ [r]) r.target := by
  have hno := (acc.holders r.target).not.mp (by rw [hinactive]; exact Bool.false_ne_true)
  have hnothing : holding f first t.transfers r.target = 0 :=
    holding_of_inactive (fun r' hr' => (recorded r' hr').2) hno hinactive
  have hdiffer : ¬ (r.fund = f.id ∧ r.source = r.target) := fun hand => h.differ hand.2
  rw [holding_append, hnothing, if_pos ⟨hrf, rfl⟩, if_neg hdiffer]
  omega

theorem units_settled (acc : Accounts t f first) (wf : t.WellFormed) (recorded : Recorded t)
    (h : t.Admits e r) (hid : freshId ∉ t.entryIds) {d : Entry}
    (hd : d ∈ (t.settled freshId now e r).entries) (hdf : d.fund = f.id) :
    d.units = holding f first (t.transfers ++ [r]) d.owner := by
  rw [Tables.settled_entries wf h hid] at hd
  rcases List.mem_append.mp hd with hd | hd
  · obtain ⟨b, hb, rfl⟩ := List.mem_map.mp hd
    rw [Tables.adjusted_fund] at hdf
    rw [Tables.adjusted_owner]
    exact acc.units_adjusted wf h hb hdf
  · split at hd
    · cases hd
    · rename_i hinactive
      obtain rfl := List.mem_singleton.mp hd
      have hrf : r.fund = f.id := hdf
      rw [hrf, Bool.not_eq_true] at hinactive
      exact acc.units_newcomer recorded h hrf hinactive

/-- Settling a record keeps the accounts of every fund. -/
theorem settled (acc : Accounts t f first) (wf : t.WellFormed) (recorded : Recorded t)
    (h : t.Admits e r) (hid : freshId ∉ t.entryIds) :
    Accounts (t.settled freshId now e r) f first := by
  have wf' : (t.settled freshId now e r).WellFormed := wf.settled h hid
  have hrecords : (t.settled freshId now e r).transfers = t.transfers ++ [r] :=
    Tables.settled_transfers e r
  have htotal : circulating (t.settled freshId now e r) f.id = f.totalUnits := by
    rw [circulating_settled wf h hid, acc.total]
  refine ⟨hrecords ▸ acc.holders_settled wf h hid, ?_, ?_, ?_, htotal, acc.positive, acc.bounded⟩
  · intro d hd owner hof
    obtain ⟨hdf, rfl, -⟩ := Tables.isActiveOf_iff.mp hof
    rw [hrecords]
    exact acc.units_settled wf recorded h hid hd hdf
  · intro d hd d' hd' owner hof hof'
    obtain ⟨hdf, hdo, -⟩ := Tables.isActiveOf_iff.mp hof
    obtain ⟨hdf', hdo', -⟩ := Tables.isActiveOf_iff.mp hof'
    exact wf'.eq_of_holder hd hd' (hdf.trans hdf'.symm) (hdo.trans hdo'.symm)
  · intro n owner
    rw [hrecords]
    by_cases hn : n ≤ t.transfers.length
    · rw [List.take_append_of_le_length hn]
      exact acc.covered n owner
    -- After all records an owner has an entry, whose units are part of the total, or holds nothing.
    rw [List.take_of_length_le (by simp; omega)]
    have hpositive := acc.positive
    by_cases hactive : (t.settled freshId now e r).hasActive f.id owner = true
    · obtain ⟨d, hd, hdf, rfl⟩ := wf'.hasActive_iff.mp hactive
      rw [← acc.units_settled wf recorded h hid hd hdf, ← htotal]
      exact ⟨wf'.units d hd,
        units_le_circulating wf' (mem_entriesOf.mpr ⟨hd, hdf, wf'.active d hd⟩)⟩
    · have hno := (acc.holders_settled wf h hid owner).not.mp hactive
      have hinactive : t.hasActive f.id owner = false := by
        rw [Tables.hasActive_settled wf h hid, not_or] at hactive
        simpa using hactive.1
      rw [holding_of_inactive (sources recorded wf h) hno hinactive]
      omega

end Settled

end Accounts

end UnitLedger.Ledger
