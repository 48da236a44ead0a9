import Mathlib.Algebra.BigOperators.Group.List.Basic
import Mathlib.Algebra.Order.Ring.Int
import UnitLedger.Proofs.Memory.Settlement

/-!
  UnitLedger.Proofs.Memory.Balances — what any commit does to an active entry.

  Whatever transactions do, entries have ids of their own and an owner has at most one active entry in
  a fund (`Keyed`). A journal that stores nothing under the id of an active entry changes of it the
  balance and the time of change only, and the balance by what it debits from the entry and credits to
  its owner (`commit_balance`).
-/

namespace UnitLedger.Memory

/-! ## What a journal moves -/

def Write.outgoing (row : Uuid) : Write → Int
  | .debit id units => if id = row then units else 0
  | _ => 0

def Write.incoming (fund : Uuid) (owner : String) : Write → Int
  | .credit f o units => if f = fund ∧ o = owner then units else 0
  | _ => 0

namespace Journal

def outgoing (row : Uuid) (j : Journal) : Int := (j.map (Write.outgoing row)).sum

def incoming (fund : Uuid) (owner : String) (j : Journal) : Int :=
  (j.map (Write.incoming fund owner)).sum

theorem outgoing_eq_zero {row : Uuid} {j : Journal} (h : ∀ units, Write.debit row units ∉ j) :
    j.outgoing row = 0 := by
  refine List.sum_eq_zero fun n hn => ?_
  obtain ⟨w, hw, rfl⟩ := List.mem_map.mp hn
  cases w with
  | debit id units =>
    have hne : id ≠ row := by
      rintro rfl
      exact h units hw
    simp [Write.outgoing, hne]
  | _ => rfl

/-- The writes create no entries of their own; a credit may still create one. -/
def Plain (j : Journal) : Prop := ∀ w ∈ j, ∀ e, w ≠ .entry e

end Journal

namespace Tables

variable {t t' : Tables} {fresh : Nat → Uuid} {freshId : Uuid} {now : Instant}

/-! ## Keys -/

structure Keyed (t : Tables) : Prop where
  ids : t.entryIds.Nodup
  holders : ∀ a ∈ t.entries, ∀ b ∈ t.entries, a.isActive = true → b.isActive = true →
    a.fund = b.fund → a.owner = b.owner → a = b

namespace Keyed

variable (keyed : t.Keyed)

include keyed

theorem eq_of_id {a b : Entry} (ha : a ∈ t.entries) (hb : b ∈ t.entries) (h : a.id = b.id) : a = b :=
  List.inj_on_of_nodup_map keyed.ids ha hb h

theorem entryById_eq_some {id : Uuid} {e : Entry} :
    t.entryById id = some e ↔ e ∈ t.entries ∧ e.id = id :=
  entryById_eq_some_of_nodup keyed.ids

theorem activeOf_eq_some {fund : Uuid} {owner : String} {e : Entry} :
    t.activeOf fund owner = some e ↔
      e ∈ t.entries ∧ e.fund = fund ∧ e.owner = owner ∧ e.isActive = true := by
  refine ⟨mem_of_activeOf, ?_⟩
  rintro ⟨he, rfl, rfl, hactive⟩
  cases h : t.activeOf e.fund e.owner with
  | none =>
    have := List.find?_eq_none.mp h e he
    simp [isActiveOf_iff, hactive] at this
  | some d =>
    obtain ⟨hd, hfund, howner, hdactive⟩ := mem_of_activeOf h
    rw [keyed.holders d hd e he hdactive hactive hfund howner]

end Keyed

theorem keyed_empty : Keyed {} := ⟨List.nodup_nil, fun a ha => by cases ha⟩

theorem Keyed.without (keyed : t.Keyed) (ids : List Uuid) : (t.without ids).Keyed :=
  ⟨keyed.ids.sublist (List.filter_sublist.map _), fun a ha b hb =>
    keyed.holders a (List.mem_filter.mp ha).1 b (List.mem_filter.mp hb).1⟩

theorem Keyed.setUnits (keyed : t.Keyed) (id : Uuid) (units : Int) :
    (t.setUnits id units now).Keyed := by
  refine ⟨by rw [entryIds_setUnits]; exact keyed.ids, ?_⟩
  intro a ha b hb
  obtain ⟨a', ha', rfl⟩ := mem_setUnits.mp ha
  obtain ⟨b', hb', rfl⟩ := mem_setUnits.mp hb
  intro hactive hactive' hfund howner
  have hsame : a' = b' := by
    refine keyed.holders a' ha' b' hb' ?_ ?_ ?_ ?_ <;> revert hactive hactive' hfund howner <;>
      split <;> split <;> simp [repriced, Entry.isActive] <;> tauto
  rw [hsame]

theorem mem_putEntry {d e : Entry} :
    d ∈ (t.putEntry e).entries ↔ (d ∈ t.entries ∧ d.id ≠ e.id) ∨ d = e := by
  simp [Tables.putEntry]

theorem Keyed.putEntry (keyed : t.Keyed) {e : Entry}
    (hnew : e.isActive = true → t.activeOf e.fund e.owner = none) : (t.putEntry e).Keyed := by
  have hother : ∀ d ∈ t.entries, d.isActive = true → e.isActive = true → d.fund = e.fund →
      d.owner ≠ e.owner := by
    intro d hd hactive hactive' hfund howner
    have hsome := keyed.activeOf_eq_some.mpr ⟨hd, hfund, howner, hactive⟩
    rw [hnew hactive'] at hsome
    cases hsome
  refine ⟨entryIds_putEntry keyed.ids e, ?_⟩
  intro a ha b hb hactive hactive' hfund howner
  rcases mem_putEntry.mp ha with ⟨hold, -⟩ | rfl <;>
    rcases mem_putEntry.mp hb with ⟨hold', -⟩ | rfl
  · exact keyed.holders a hold b hold' hactive hactive' hfund howner
  · exact absurd howner (hother a hold hactive hactive' hfund)
  · exact absurd howner.symm (hother b hold' hactive' hactive hfund.symm)
  · rfl

theorem Keyed.apply (keyed : t.Keyed) {w : Write} {undo : Undo}
    (h : t.apply freshId now w = .ok (t', undo)) : t'.Keyed := by
  cases applied h with
  | fund | transfer => exact ⟨keyed.ids, keyed.holders⟩
  | entry fund units free => exact keyed.putEntry free
  | debit | credit => exact keyed.setUnits _ _
  | creates free => exact keyed.putEntry fun _ => free

/-- A commit keeps the keys, whether it is refused or not. -/
theorem Keyed.commit (keyed : t.Keyed) (fresh : Nat → Uuid) (now : Instant) (journal : Journal) :
    (t.commit fresh now journal).1.Keyed := by
  rcases h : t.commit fresh now journal with ⟨t', v | u⟩
  · rw [commit_error keyed.ids h]
    exact keyed.without _
  · exact applyAll_keeps keyed (fun _ _ _ _ _ _ keyed happly => keyed.apply happly) h

/-! ## The ids of the entries -/

theorem entryIds_putEntry_subset (e : Entry) : (t.putEntry e).entryIds ⊆ t.entryIds ++ [e.id] := by
  intro id hid
  obtain ⟨d, hd, rfl⟩ := List.mem_map.mp hid
  rcases mem_putEntry.mp hd with ⟨hd, -⟩ | rfl
  · exact List.mem_append_left _ (List.mem_map_of_mem hd)
  · exact List.mem_append_right _ (List.mem_singleton_self _)

theorem entryIds_apply_subset {w : Write} {undo : Undo} (h : t.apply freshId now w = .ok (t', undo)) :
    t'.entryIds ⊆ t.entryIds ++ w.created freshId := by
  cases applied h with
  | fund | transfer => exact List.subset_append_left _ _
  | entry | creates => exact entryIds_putEntry_subset _
  | debit | credit =>
    rw [entryIds_setUnits]
    exact List.subset_append_left _ _

/-- Every entry after a commit was there before or was created by it. -/
theorem entryIds_commit_subset {journal : Journal} (h : t.commit fresh now journal = (t', .ok ())) :
    t'.entryIds ⊆ t.entryIds ++ Journal.created fresh journal := by
  refine applyAll_keeps (P := fun t'' => t''.entryIds ⊆ t.entryIds ++ Journal.created fresh journal)
    (List.subset_append_left _ _) ?_ h
  intro n w _ _ _ hw hbefore happly id hid
  rcases List.mem_append.mp (entryIds_apply_subset happly hid) with hid | hid
  · exact hbefore hid
  · exact List.mem_append_right _ (Journal.created_subset hw hid)

/-! ## Balances -/

@[simp] theorem repriced_self (e : Entry) : repriced e.units e.updatedAt e = e := rfl

@[simp] theorem isActive_repriced (e : Entry) (units : Int) (now : Instant) :
    (repriced units now e).isActive = e.isActive := rfl

theorem mem_of_setUnits_self {e : Entry} (he : e ∈ t.entries) (units : Int) :
    repriced units now e ∈ (t.setUnits e.id units now).entries :=
  mem_setUnits.mpr ⟨e, he, by simp⟩

theorem mem_of_setUnits_ne {e : Entry} (he : e ∈ t.entries) {id : Uuid} (hne : e.id ≠ id)
    (units : Int) : e ∈ (t.setUnits id units now).entries :=
  mem_setUnits.mpr ⟨e, he, by simp [hne]⟩

/-- A write that is carried out changes an active entry by what it moves. -/
theorem apply_balance (keyed : t.Keyed) {e : Entry} (he : e ∈ t.entries) (hactive : e.isActive = true)
    {w : Write} {undo : Undo} (hnew : e.id ∉ w.created freshId)
    (h : t.apply freshId now w = .ok (t', undo)) :
    ∃ at_, repriced (e.units - w.outgoing e.id + w.incoming e.fund e.owner) at_ e ∈ t'.entries := by
  have hstill : ∀ {units : Int}, units = e.units → e ∈ t'.entries →
      ∃ at_, repriced units at_ e ∈ t'.entries := by
    rintro _ rfl hmem
    exact ⟨e.updatedAt, hmem⟩
  cases applied h with
  | fund => exact hstill (by simp [Write.outgoing, Write.incoming]) he
  | entry =>
    exact hstill (by simp [Write.outgoing, Write.incoming])
      (mem_putEntry.mpr (Or.inl ⟨he, fun hid => hnew (List.mem_singleton.mpr hid)⟩))
  | @debit d units hd =>
    by_cases hde : d.id = e.id
    · obtain rfl := keyed.eq_of_id hd he hde
      exact ⟨now, by simpa [Write.outgoing, Write.incoming] using mem_of_setUnits_self hd _⟩
    · exact hstill (by simp [Write.outgoing, Write.incoming, hde])
        (mem_of_setUnits_ne he (Ne.symm hde) _)
  | @credit d fund owner units found =>
    obtain ⟨hd, rfl, rfl, hdactive⟩ := mem_of_activeOf found
    by_cases hde : d.id = e.id
    · obtain rfl := keyed.eq_of_id hd he hde
      exact ⟨now, by simpa [Write.outgoing, Write.incoming] using mem_of_setUnits_self hd _⟩
    · have hother : ¬ (d.fund = e.fund ∧ d.owner = e.owner) := fun hsame =>
        hde (congrArg _ (keyed.holders d hd e he hdactive hactive hsame.1 hsame.2))
      exact hstill (by simp [Write.outgoing, Write.incoming, hother])
        (mem_of_setUnits_ne he (Ne.symm hde) _)
  | @creates fund owner units free =>
    have hother : ¬ (fund = e.fund ∧ owner = e.owner) := by
      rintro ⟨rfl, rfl⟩
      rw [keyed.activeOf_eq_some.mpr ⟨he, rfl, rfl, hactive⟩] at free
      cases free
    exact hstill (by simp [Write.outgoing, Write.incoming, hother])
      (mem_putEntry.mpr (Or.inl ⟨he, fun hid => hnew (List.mem_singleton.mpr hid)⟩))
  | transfer => exact hstill (by simp [Write.outgoing, Write.incoming]) he

theorem applyAll_balance {journal : Journal} {undos : List Undo} (keyed : t.Keyed) {e : Entry}
    (he : e ∈ t.entries) (hactive : e.isActive = true) (hnew : e.id ∉ Journal.created fresh journal)
    (h : t.applyAll fresh now undos journal = (t', .ok ())) :
    ∃ at_, repriced (e.units - journal.outgoing e.id + journal.incoming e.fund e.owner) at_ e ∈
      t'.entries := by
  induction journal generalizing fresh t e undos with
  | nil =>
    cases h
    exact ⟨e.updatedAt, by simpa [Journal.outgoing, Journal.incoming] using he⟩
  | cons w rest ih =>
    simp only [applyAll] at h
    split at h
    · rename_i next undo happly
      obtain ⟨hw, hrest⟩ : e.id ∉ w.created (fresh 0) ∧
          e.id ∉ Journal.created (fun n => fresh (n + 1)) rest := by
        simpa [Journal.created] using hnew
      obtain ⟨at_, hnext⟩ := apply_balance keyed he hactive hw happly
      obtain ⟨at_', hlast⟩ := ih (keyed.apply happly) hnext hactive hrest h
      refine ⟨at_', ?_⟩
      have hunits : e.units - w.outgoing e.id + w.incoming e.fund e.owner - Journal.outgoing e.id rest +
          Journal.incoming e.fund e.owner rest = e.units - Journal.outgoing e.id (w :: rest) +
          Journal.incoming e.fund e.owner (w :: rest) := by
        simp only [Journal.outgoing, Journal.incoming, List.map_cons, List.sum_cons]
        omega
      rw [← hunits]
      exact hlast
    · cases h

/-- A commit that is not refused changes an active entry by what its journal moves, and nothing else
of it but the time of change. -/
theorem commit_balance {journal : Journal} (keyed : t.Keyed) {e : Entry} (he : e ∈ t.entries)
    (hactive : e.isActive = true) (hnew : e.id ∉ Journal.created fresh journal)
    (h : t.commit fresh now journal = (t', .ok ())) :
    ∃ at_, repriced (e.units - journal.outgoing e.id + journal.incoming e.fund e.owner) at_ e ∈
      t'.entries :=
  applyAll_balance keyed he hactive hnew h

end Tables

end UnitLedger.Memory
