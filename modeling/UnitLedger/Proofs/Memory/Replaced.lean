import UnitLedger.Proofs.Memory.Records
import UnitLedger.Proofs.Memory.Undo

/-!
  UnitLedger.Proofs.Memory.Replaced — what a commit does to the rows that are there.

  A commit that goes through only adds funds and transfers (`commit_funds`, `commit_transfers`). Of an
  entry it changes the balance and the time of change, as long as it stores no other one under the same
  id. When it does, the last one stored there is the entry of that id from then on (`commit_row`): a
  commit loses no id, but an entry that it stores takes the place of the one that had the id.
-/

namespace UnitLedger.Memory.Tables

variable {t t' : Tables} {fresh : Nat → Uuid} {freshId : Uuid} {now : Instant} {w : Write}
  {undo : Undo} {journal : Journal}

/-! ## Entries up to their balance -/

def blank (e : Entry) : Entry := repriced 0 ⟨0⟩ e

theorem blank_eq_iff {d e : Entry} : blank d = blank e ↔ ∃ units at_, d = repriced units at_ e := by
  constructor
  · intro h
    refine ⟨d.units, d.updatedAt, ?_⟩
    calc d = repriced d.units d.updatedAt (blank d) := rfl
      _ = repriced d.units d.updatedAt e := by rw [h]; rfl
  · rintro ⟨units, at_, rfl⟩
    rfl

def row (t : Tables) (id : Uuid) : Option Entry := (t.entryById id).map blank

theorem entryById_putEntry (e : Entry) (id : Uuid) :
    (t.putEntry e).entryById id = if e.id = id then some e else t.entryById id := by
  simp only [entryById, putEntry, List.find?_append]
  by_cases h : e.id = id
  · have hnone : (t.entries.filter fun old => old.id != e.id).find? (fun d => d.id == id) = none := by
      refine List.find?_eq_none.mpr fun d hd => ?_
      have hne := (List.mem_filter.mp hd).2
      rw [h] at hne
      simpa using hne
    rw [hnone, if_pos h]
    simp [h]
  · have hkept : (t.entries.filter fun old => old.id != e.id).find? (fun d => d.id == id) =
        t.entries.find? fun d => d.id == id := by
      rw [List.find?_filter]
      congr 1
      funext d
      by_cases hd : d.id = id
      · simp [hd, Ne.symm h]
      · simp [hd]
    simp [hkept, h]

theorem row_setUnits (id : Uuid) (units : Int) (id' : Uuid) :
    (t.setUnits id units now).row id' = t.row id' := by
  simp only [row, entryById_setUnits, Option.map_map]
  congr 1
  funext e
  simp only [Function.comp_apply]
  split <;> rfl

theorem row_putEntry (e : Entry) (id : Uuid) :
    (t.putEntry e).row id = if e.id = id then some (blank e) else t.row id := by
  rw [row, entryById_putEntry]
  split <;> rfl

/-! ## Entries that a commit stores -/

/-- The entries that are stored by those writes that are carried out before one is refused. -/
def filed (fresh : Nat → Uuid) (now : Instant) : Tables → Journal → List Entry
  | _, [] => []
  | t, w :: rest =>
    match t.apply (fresh 0) now w with
    | .error _ => []
    | .ok (t, undo) =>
      undo.stored.filterMap t.entryById ++ filed (fun n => fresh (n + 1)) now t rest

def lastOf (id : Uuid) (entries : List Entry) : Option Entry :=
  (entries.filter fun e => e.id == id).getLast?

theorem lastOf_append (id : Uuid) (entries entries' : List Entry) :
    lastOf id (entries ++ entries') = (lastOf id entries').or (lastOf id entries) := by
  rw [lastOf, List.filter_append, List.getLast?_append]
  rfl

theorem filterMap_putEntry (e : Entry) : [e.id].filterMap (t.putEntry e).entryById = [e] := by
  simp [entryById_putEntry]

/-- What a write stores stands under its id afterwards. -/
theorem row_apply (h : t.apply freshId now w = .ok (t', undo)) (id : Uuid) :
    t'.row id = ((lastOf id (undo.stored.filterMap t'.entryById)).map blank).or (t.row id) := by
  have hstores : ∀ e : Entry, (t.putEntry e).row id =
      ((lastOf id ([e.id].filterMap (t.putEntry e).entryById)).map blank).or (t.row id) := by
    intro e
    rw [row_putEntry, filterMap_putEntry]
    by_cases he : e.id = id <;> simp [lastOf, he]
  cases applied h with
  | fund | transfer => rfl
  | debit | credit => exact row_setUnits _ _ id
  | @entry e => exact hstores e
  | @creates fund owner units => exact hstores (firstCredit freshId now fund owner units)

/-- By induction on the writes: what a later write stores under an id stands over what earlier ones
did. -/
theorem row_applyAll {undos : List Undo} (h : t.applyAll fresh now undos journal = (t', .ok ()))
    (id : Uuid) :
    t'.row id = ((lastOf id (t.filed fresh now journal)).map blank).or (t.row id) := by
  induction journal generalizing fresh t undos with
  | nil =>
    cases h
    rfl
  | cons w rest ih =>
    simp only [applyAll] at h
    simp only [filed]
    split at h
    · rename_i next undo happly
      rw [happly, ih h, row_apply happly, lastOf_append, ← Option.or_assoc, Option.map_or]
    · cases h

/-- After a commit that goes through, the entry of an id is the last one that the commit has stored
under it, or else the one that was there, up to the balance. -/
theorem commit_row (h : t.commit fresh now journal = (t', .ok ())) (id : Uuid) :
    t'.row id = ((lastOf id (t.filed fresh now journal)).map blank).or (t.row id) :=
  row_applyAll h id

/-- A stored entry was created by the journal, or by a credit, which gave it an id of the supply. -/
theorem mem_filed {e : Entry} (h : e ∈ t.filed fresh now journal) :
    Write.entry e ∈ journal ∨ ∃ n < journal.length, ∃ fund owner units,
      Write.credit fund owner units ∈ journal ∧ e = firstCredit (fresh n) now fund owner units := by
  induction journal generalizing fresh t with
  | nil => cases h
  | cons w rest ih =>
    simp only [filed] at h
    split at h
    · cases h
    · rename_i next undo happly
      rcases List.mem_append.mp h with h | h
      · have hstored : ∀ d : Entry, e ∈ [d.id].filterMap (t.putEntry d).entryById → e = d := by
          intro d hd
          rw [filterMap_putEntry] at hd
          exact List.mem_singleton.mp hd
        cases applied happly with
        | fund | transfer | debit | credit => cases h
        | @entry d =>
          obtain rfl := hstored d h
          exact Or.inl List.mem_cons_self
        | @creates fund owner units =>
          exact Or.inr ⟨0, Nat.succ_pos _, fund, owner, units, List.mem_cons_self, hstored _ h⟩
      · rcases ih h with hmem | ⟨n, hn, fund, owner, units, hmem, rfl⟩
        · exact Or.inl (List.mem_cons_of_mem _ hmem)
        · exact Or.inr ⟨n + 1, Nat.succ_lt_succ hn, fund, owner, units,
            List.mem_cons_of_mem _ hmem, rfl⟩

/-! ## Rows that stay -/

theorem commit_funds (h : t.commit fresh now journal = (t', .ok ())) : t.funds <+: t'.funds :=
  applyAll_keeps (P := fun t'' => t.funds <+: t''.funds) (List.prefix_refl _)
    (fun _ _ _ _ _ _ hbefore happly => hbefore.trans (funds_prefix_apply happly)) h

theorem commit_transfers (h : t.commit fresh now journal = (t', .ok ())) :
    t.transfers <+: t'.transfers := by
  have hrecords := transfers_commit fresh now t journal
  rw [h] at hrecords
  exact ⟨journal.records, hrecords.symm⟩

/-- An entry is there, up to its balance, exactly if its id has this row. -/
theorem row_eq_some (hids : t.entryIds.Nodup) {e : Entry} :
    t.row e.id = some (blank e) ↔ ∃ units at_, repriced units at_ e ∈ t.entries := by
  constructor
  · intro h
    obtain ⟨d, hd, hblank⟩ := Option.map_eq_some_iff.mp h
    obtain ⟨units, at_, rfl⟩ := blank_eq_iff.mp hblank
    exact ⟨units, at_, (mem_of_entryById hd).1⟩
  · rintro ⟨units, at_, hmem⟩
    have hfound : t.entryById e.id = some (repriced units at_ e) :=
      (entryById_eq_some_of_nodup hids).mpr ⟨hmem, rfl⟩
    rw [row, hfound]
    rfl

theorem mem_entryIds_iff {id : Uuid} : id ∈ t.entryIds ↔ (t.row id).isSome = true := by
  simp [row, entryById, entryIds]

/-- A committed entry keeps its id through a commit that goes through. It stays the same entry up to its
balance exactly if the last entry that the commit stores under its id, if any, is the same up to its
balance. -/
theorem commit_entry (hids : t.entryIds.Nodup) (h : t.commit fresh now journal = (t', .ok ()))
    {e : Entry} (he : e ∈ t.entries) :
    e.id ∈ t'.entryIds ∧ ((∃ units at_, repriced units at_ e ∈ t'.entries) ↔
      ∀ d, lastOf e.id (t.filed fresh now journal) = some d → ∃ units at_, d = repriced units at_ e) := by
  have hbefore : t.row e.id = some (blank e) := (row_eq_some hids).mpr ⟨e.units, e.updatedAt, he⟩
  have hafter := commit_row h e.id
  have hids' : t'.entryIds.Nodup := by
    have := entryIds_commit fresh now journal hids
    rwa [h] at this
  rw [mem_entryIds_iff, ← row_eq_some hids', hafter, hbefore]
  cases hlast : lastOf e.id (t.filed fresh now journal) with
  | none => simp
  | some d => simp [blank_eq_iff]

end UnitLedger.Memory.Tables
