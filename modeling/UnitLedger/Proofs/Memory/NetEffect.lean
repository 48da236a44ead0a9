import UnitLedger.Memory.World
import UnitLedger.Proofs.Memory.Records
import UnitLedger.Proofs.Memory.Turnover

/-!
  UnitLedger.Proofs.Memory.NetEffect — what a commit comes to as a whole.

  A commit that goes through adds the funds and transfers of its journal, leaves the entries alone that
  no write names, and makes of the others what the sum of all its writes makes of them (`NetEffect`).

  An open transaction judges its next write by the committed rows and by its journal, the commit by the
  rows that the journal has left. With `NetEffect` the two can be compared: what the transaction knows
  of is what is there afterwards (`hasFund`, `hasActive`, ...). So a write that is refused when it is
  made would have been refused by the commit as well (`refuses_fund` and the lemmas after it).
-/

namespace UnitLedger.Memory

/-! ## What a commit leaves alone, and what it adds -/

/-- The write is about this entry: it stores one of its id, debits it, or credits its owner. -/
def Write.Names (e : Entry) : Write → Prop
  | .entry d => d.id = e.id
  | .debit id _ => id = e.id
  | .credit f owner _ => e.isActiveOf f owner = true
  | .fund _ | .transfer _ => False

def Write.fund? : Write → Option Fund
  | .fund f => some f
  | .entry _ | .debit _ _ | .credit _ _ _ | .transfer _ => none

def Journal.funds (j : Journal) : List Fund := j.filterMap Write.fund?

namespace Tables

variable {t t' : Tables} {fresh : Nat → Uuid} {freshId : Uuid} {now : Instant} {w : Write}
  {undo : Undo} {journal : Journal}

theorem apply_unnamed (keyed : t.Keyed) {e : Entry} (he : e ∈ t.entries) (hother : ¬ w.Names e)
    (hnew : e.id ∉ w.created freshId) (h : t.apply freshId now w = .ok (t', undo)) :
    e ∈ t'.entries := by
  cases applied h with
  | fund | transfer => exact he
  | entry | creates =>
    exact mem_putEntry.mpr (Or.inl ⟨he, fun hid => hnew (List.mem_singleton.mpr hid)⟩)
  | debit => exact mem_of_setUnits_ne he (fun hid => hother hid.symm) _
  | @credit d fund owner units found =>
    obtain ⟨hd, hactive⟩ := mem_of_activeOf found
    refine mem_of_setUnits_ne he (fun hid => hother ?_) _
    rw [keyed.eq_of_id he hd hid]
    exact isActiveOf_iff.mpr hactive

/-- A commit that goes through keeps every entry that its journal does not name. -/
theorem commit_unnamed (keyed : t.Keyed) (new : journal.NewIds fresh t) {e : Entry} (he : e ∈ t.entries)
    (hother : ∀ w ∈ journal, ¬ w.Names e) (h : t.commit fresh now journal = (t', .ok ())) :
    e ∈ t'.entries := by
  have hold : e.id ∉ Journal.created fresh journal := fun hid =>
    new.unused e.id hid (List.mem_map_of_mem he)
  refine (applyAll_keeps (P := fun t'' => t''.Keyed ∧ e ∈ t''.entries) ⟨keyed, he⟩ ?_ h).2
  rintro n w _ _ _ hw ⟨keyed, he⟩ happly
  have hnew : e.id ∉ w.created (fresh n) := fun hid => hold (Journal.created_subset hw hid)
  exact ⟨keyed.apply happly, apply_unnamed keyed he (hother w (List.mem_of_getElem? hw)) hnew happly⟩

theorem funds_apply (h : t.apply freshId now w = .ok (t', undo)) :
    t'.funds = t.funds ++ w.fund?.toList := by
  cases applied h with
  | fund => rfl
  | _ => exact (List.append_nil _).symm

theorem funds_applyAll {undos : List Undo} (h : t.applyAll fresh now undos journal = (t', .ok ())) :
    t'.funds = t.funds ++ journal.funds := by
  induction journal generalizing fresh t undos with
  | nil =>
    cases h
    exact (List.append_nil _).symm
  | cons w rest ih =>
    simp only [applyAll] at h
    split at h
    · rename_i next undo happly
      have hfunds : Journal.funds (w :: rest) = w.fund?.toList ++ Journal.funds rest := by
        unfold Journal.funds
        cases hw : w.fund? <;> simp [hw]
      rw [ih h, funds_apply happly, hfunds, List.append_assoc]
    · cases h

/-- A commit that goes through adds the funds of its journal, in their order. -/
theorem funds_commit (h : t.commit fresh now journal = (t', .ok ())) :
    t'.funds = t.funds ++ journal.funds :=
  funds_applyAll h

end Tables

/-! ## The effect as a whole -/

/-- The rows after the writes of the journal are those before, changed by what these writes come to. -/
structure NetEffect (j : Journal) (before after : Tables) : Prop where
  /-- Who had an entry keeps one, and who has one now had one, has it created, or is credited. -/
  holders : ∀ fund owner, after.hasActive fund owner =
    (before.hasActive fund owner || (j.createdEntry fund owner).isSome || j.credits fund owner)
  units : ∀ fund owner e, after.activeOf fund owner = some e →
    e.units = unitsOf (before.activeOf fund owner) + unitsOf (j.createdEntry fund owner) +
      j.incoming fund owner - j.outgoing e.id
  unnamed : ∀ e ∈ before.entries, (∀ w ∈ j, ¬ w.Names e) → e ∈ after.entries
  funds : after.funds = before.funds ++ j.funds
  transfers : after.transfers = before.transfers ++ j.records

namespace Tables

variable {t t' : Tables} {fresh : Nat → Uuid} {now : Instant} {journal : Journal}

theorem commit_netEffect (keyed : t.Keyed) (new : journal.NewIds fresh t)
    (h : t.commit fresh now journal = (t', .ok ())) : NetEffect journal t t' := by
  have hturnover := fun fund owner => commit_turnover keyed new h fund owner
  refine ⟨fun fund owner => (hturnover fund owner).isSome, fun fund owner e he => ?_,
    fun e he hother => commit_unnamed keyed new he hother h, funds_commit h, ?_⟩
  · have hafter := hturnover fund owner
    rw [he] at hafter
    exact hafter.units
  · have hrecords := transfers_commit fresh now t journal
    rwa [h] at hrecords

end Tables

/-! ## What the transaction knows of -/

theorem Journal.createsFund_eq (j : Journal) (id : Uuid) :
    j.createsFund id = j.funds.any fun f => f.id == id := by
  unfold createsFund funds
  rw [List.any_filterMap]
  congr 1
  funext w
  cases w <;> rfl

theorem Journal.createsFundName_eq (j : Journal) (name : String) :
    j.createsFundName name = j.funds.any fun f => f.name == name := by
  unfold createsFundName funds
  rw [List.any_filterMap]
  congr 1
  funext w
  cases w <;> rfl

theorem Journal.recordOf_eq (j : Journal) (key : Uuid) :
    j.recordOf key = j.records.find? fun r => r.key == some key := by
  induction j with
  | nil => rfl
  | cons w rest ih =>
    cases w with
    | transfer r =>
      by_cases h : r.key = some key
      · simp [recordOf, records, Write.record?, h]
      · simpa [recordOf, records, Write.record?, h] using ih
    | _ => exact ih

namespace NetEffect

variable {j : Journal} {t t' : Tables}

theorem hasFund (h : NetEffect j t t') (fund : Uuid) : t'.hasFund fund = j.knowsFund t fund := by
  rw [Tables.hasFund, h.funds, List.any_append, Journal.knowsFund, Journal.createsFund_eq]
  rfl

theorem hasFundName (h : NetEffect j t t') (name : String) :
    t'.hasFundName name = (t.hasFundName name || j.createsFundName name) := by
  rw [Tables.hasFundName, h.funds, List.any_append, Journal.createsFundName_eq]
  rfl

theorem hasActive (h : NetEffect j t t') (fund : Uuid) (owner : String) :
    t'.hasActive fund owner = j.knowsOwner t fund owner :=
  h.holders fund owner

theorem findByKey (h : NetEffect j t t') (key : Uuid) : t'.findByKey key = j.findByKey t key := by
  rw [Tables.findByKey, h.transfers, List.find?_append, Journal.findByKey, Journal.recordOf_eq]
  rfl

/-! ## Writes that are refused at once -/

variable {v : Violation} (freshId : Uuid) (now : Instant)

theorem refuses_fund (h : NetEffect j t t') {f : Fund} (hrefused : j.addFund t f = .error v) :
    ∃ v', t'.apply freshId now (.fund f) = .error v' := by
  have hname : t'.hasFundName f.name = true := by
    rw [h.hasFundName]
    unfold Journal.addFund at hrefused
    split at hrefused
    · assumption
    · cases hrefused
  simp only [Tables.apply, Tables.applyFund, hname, if_true]
  split
  · exact ⟨_, rfl⟩
  · exact ⟨_, rfl⟩

theorem refuses_entry (h : NetEffect j t t') {e : Entry} (hrefused : j.addEntry t e = .error v) :
    ∃ v', t'.apply freshId now (.entry e) = .error v' := by
  simp only [Tables.apply, Tables.applyEntry, h.hasFund, h.hasActive, Journal.knowsOwner]
  unfold Journal.addEntry at hrefused
  split at hrefused
  · rename_i hmissing
    exact ⟨_, if_pos hmissing⟩
  · rename_i hknown
    split at hrefused
    · rename_i htaken
      -- An entry that is refused as the second one of its owner may have negative units as well.
      rw [if_neg hknown]
      split
      · exact ⟨_, rfl⟩
      · refine ⟨_, if_pos ?_⟩
        obtain ⟨hactive, howner⟩ := Bool.and_eq_true_iff.mp htaken
        rw [hactive, howner]
        rfl
    · cases hrefused

/-- The checks of a record are the same, one by one. -/
theorem refuses_transfer (h : NetEffect j t t') {r : Transfer} (hrefused : j.addTransfer t r = .error v) :
    t'.apply freshId now (.transfer r) = .error v := by
  have hused : ∀ key, (t'.findByKey key).isSome = j.keyUsed t key := fun key => by
    rw [h.findByKey, Journal.findByKey, Option.isSome_or, Journal.keyUsed]
  simp only [Tables.apply, Tables.applyTransfer, h.hasFund, h.hasActive, hused]
  unfold Journal.addTransfer at hrefused
  split_ifs at hrefused ⊢ <;> cases hrefused <;> rfl

end NetEffect

namespace Tables

variable {t : Tables} {fresh : Nat → Uuid} {now : Instant} {journal : Journal} {w : Write}

/-- By induction on the writes before it: a write that is refused after them is refused with them. -/
theorem applyAll_concat_error {undos : List Undo}
    (h : ∀ t', t.applyAll fresh now undos journal = (t', .ok ()) →
      ∃ v, t'.apply (fresh journal.length) now w = .error v) :
    ∃ v, (t.applyAll fresh now undos (journal ++ [w])).2 = .error v := by
  induction journal generalizing fresh t undos with
  | nil =>
    obtain ⟨v, hv⟩ := h t rfl
    exact ⟨v, by simp [applyAll, show t.apply (fresh 0) now w = .error v from hv]⟩
  | cons first rest ih =>
    simp only [List.cons_append, applyAll] at h ⊢
    cases hfirst : t.apply (fresh 0) now first with
    | error v => exact ⟨v, rfl⟩
    | ok done =>
      rw [hfirst] at h
      exact ih h

end Tables

/-! ## A party's commit -/

namespace World

variable {w w' : World} {p : Party} {now : Instant}

theorem commitTx_tables : (w.commitTx p now).1.tables =
    (w.tables.commit (fun n => w.fresh (w.used + n)) now (w.journal p)).1 := rfl

theorem commitTx_answer : (w.commitTx p now).2 =
    (w.tables.commit (fun n => w.fresh (w.used + n)) now (w.journal p)).2.mapError
      Violation.storeError := rfl

/-- A party's commit goes through exactly if that of its journal does, and leaves the same rows. -/
theorem commitTx_ok : (w.commitTx p now).2 = .ok () ↔
    w.tables.commit (fun n => w.fresh (w.used + n)) now (w.journal p) =
      ((w.commitTx p now).1.tables, .ok ()) := by
  rw [commitTx_answer, commitTx_tables]
  rcases w.tables.commit (fun n => w.fresh (w.used + n)) now (w.journal p) with ⟨t, v | u⟩ <;>
    simp [Except.mapError]

/-- What a commit does is up to the rows, the ids and the journal. -/
theorem commitTx_congr (htables : w.tables = w'.tables) (hfresh : w.fresh = w'.fresh)
    (hused : w.used = w'.used) (hjournal : w.journal p = w'.journal p) (now : Instant) :
    (w.commitTx p now).2 = (w'.commitTx p now).2 ∧
      (w.commitTx p now).1.tables = (w'.commitTx p now).1.tables := by
  rw [commitTx_answer, commitTx_answer, commitTx_tables, commitTx_tables, htables, hfresh, hused,
    hjournal]
  exact ⟨rfl, rfl⟩

end World

end UnitLedger.Memory
