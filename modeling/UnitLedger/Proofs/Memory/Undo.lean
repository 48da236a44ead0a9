import UnitLedger.Proofs.Memory.Applied

/-!
  UnitLedger.Proofs.Memory.Undo — what a refused commit leaves behind.

  A write is taken back by what it recorded (`revert_apply`), with one exception: an entry that is
  stored under an id which another entry has takes that entry's place, and taking the write back
  removes it without bringing the other one back. `commit_error` says what this comes to: a commit that
  is refused at whatever write leaves funds, transfers and all entries as they were, balances and times
  of change included, except for the entries whose ids were used again (`stored`); those are lost. So
  it changes nothing at all if the entries that it may create have new ids (`commit_error_of_new`).
-/

namespace UnitLedger.Memory

def Write.created (freshId : Uuid) : Write → List Uuid
  | .entry e => [e.id]
  | .credit _ _ _ => [freshId]
  | .fund _ | .debit _ _ | .transfer _ => []

def Journal.created (fresh : Nat → Uuid) : Journal → List Uuid
  | [] => []
  | w :: rest => w.created (fresh 0) ++ Journal.created (fun n => fresh (n + 1)) rest

/-- An entry that a journal may create has an id that was chosen or one of the supply. -/
theorem Journal.mem_created {fresh : Nat → Uuid} {journal : Journal} {id : Uuid}
    (h : id ∈ Journal.created fresh journal) :
    (∃ e, Write.entry e ∈ journal ∧ e.id = id) ∨ ∃ n < journal.length, fresh n = id := by
  induction journal generalizing fresh with
  | nil => cases h
  | cons w rest ih =>
    rcases List.mem_append.mp h with h | h
    · cases w with
      | entry e => exact Or.inl ⟨e, List.mem_cons_self, (List.mem_singleton.mp h).symm⟩
      | credit fund owner units =>
        exact Or.inr ⟨0, Nat.succ_pos _, (List.mem_singleton.mp h).symm⟩
      | _ => cases h
    · rcases ih h with ⟨e, he, hid⟩ | ⟨n, hn, hid⟩
      · exact Or.inl ⟨e, List.mem_cons_of_mem _ he, hid⟩
      · exact Or.inr ⟨n + 1, Nat.succ_lt_succ hn, hid⟩

theorem Journal.created_subset {fresh : Nat → Uuid} {journal : Journal} {n : Nat} {w : Write}
    (h : journal[n]? = some w) : w.created (fresh n) ⊆ Journal.created fresh journal := by
  induction journal generalizing fresh n with
  | nil => cases h
  | cons x rest ih =>
    cases n with
    | zero =>
      obtain rfl : x = w := by simpa using h
      exact List.subset_append_left _ _
    | succ n =>
      have hrest := @ih (fun n => fresh (n + 1)) n (by simpa using h)
      exact List.subset_append_of_subset_right _ hrest

def Undo.stored : Undo → List Uuid
  | .entry id => [id]
  | .fund _ | .units _ _ _ | .transfer => []

namespace Tables

variable {t t' : Tables} {freshId : Uuid} {now : Instant}

def entryIds (t : Tables) : List Uuid := t.entries.map (·.id)

/-- The ids under which entries are stored by those writes that are carried out before one is
refused. -/
def stored (fresh : Nat → Uuid) (now : Instant) : Tables → Journal → List Uuid
  | _, [] => []
  | t, w :: rest =>
    match t.apply (fresh 0) now w with
    | .error _ => []
    | .ok (t, undo) => undo.stored ++ stored (fun n => fresh (n + 1)) now t rest

def without (t : Tables) (ids : List Uuid) : Tables :=
  { t with entries := t.entries.filter fun e => e.id ∉ ids }

/-! ## Entries left out -/

theorem without_nil : t.without [] = t := by
  simp [without]

theorem without_eq_self {ids : List Uuid} : t.without ids = t ↔ ∀ id ∈ ids, id ∉ t.entryIds := by
  have hentries : t.without ids = t ↔ (t.without ids).entries = t.entries :=
    ⟨fun h => by rw [h], fun h => congrArg (fun entries => { t with entries }) h⟩
  rw [hentries, without, List.filter_eq_self]
  simp only [decide_eq_true_eq, entryIds, List.mem_map]
  constructor
  · rintro h id hid ⟨e, he, rfl⟩
    exact h e he hid
  · exact fun h e he hid => h e.id hid ⟨e, he, rfl⟩

/-- The change of one entry can be made before or after others are left out. -/
theorem setUnits_without (id : Uuid) (units : Int) (now : Instant) (ids : List Uuid) :
    (t.without ids).setUnits id units now = (t.setUnits id units now).without ids := by
  have hkeep : ((fun e : Entry => decide (e.id ∉ ids)) ∘ fun e : Entry =>
      if e.id == id then { e with units, updatedAt := now } else e) =
        fun e : Entry => decide (e.id ∉ ids) := by
    funext e
    simp only [Function.comp_apply]
    split <;> rfl
  simp only [without, setUnits, List.filter_map, hkeep]

theorem removeEntry_without (ids : List Uuid) (id : Uuid) :
    (t.without ids).removeEntry id = t.without (id :: ids) := by
  simp only [without, removeEntry, List.filter_filter]
  congr 2
  funext e
  by_cases h : e.id = id <;> simp [h]

/-- An entry that is stored and removed is left out together with the one that it replaced. -/
theorem removeEntry_putEntry (e : Entry) (ids : List Uuid) :
    ((t.putEntry e).without ids).removeEntry e.id = t.without (e.id :: ids) := by
  rw [removeEntry_without]
  have hother : ∀ d ∈ t.entries, d.id ∉ e.id :: ids → (d.id != e.id) = true := by
    intro d _ hd
    simp only [List.mem_cons, not_or] at hd
    simpa using hd.1
  simp only [without, putEntry, List.filter_append, List.filter_filter]
  have hlast : [e].filter (fun d => decide (d.id ∉ e.id :: ids)) = [] := by simp
  rw [hlast, List.append_nil]
  congr 1
  refine List.filter_congr fun d hd => ?_
  by_cases hmem : d.id ∈ e.id :: ids
  · simp [hmem]
  · simp [hmem, hother d hd hmem]

/-! ## Taking back one write -/

theorem setUnits_back (hids : t.entryIds.Nodup) {e : Entry} (he : e ∈ t.entries) (units : Int) :
    (t.setUnits e.id units now).setUnits e.id e.units e.updatedAt = t := by
  have hrow : ∀ d ∈ t.entries, d.id = e.id → d = e := fun d hd h =>
    List.inj_on_of_nodup_map hids hd he h
  have hentries : ((t.setUnits e.id units now).setUnits e.id e.units e.updatedAt).entries =
      t.entries := by
    simp only [setUnits, List.map_map]
    refine (List.map_congr_left fun d hd => ?_).trans (List.map_id _)
    by_cases h : d.id = e.id
    · obtain rfl := hrow d hd h
      simp
    · simp [h]
  calc (t.setUnits e.id units now).setUnits e.id e.units e.updatedAt
      = { t with entries :=
            ((t.setUnits e.id units now).setUnits e.id e.units e.updatedAt).entries } := rfl
    _ = t := by rw [hentries]

/-- What a write recorded takes the write back, up to the entries that are left out: an entry that it
stored is left out from then on. -/
theorem revert_apply {w : Write} {undo : Undo} (hids : t.entryIds.Nodup)
    (h : t.apply freshId now w = .ok (t', undo)) (ids : List Uuid) :
    (t'.without ids).revert undo = t.without (undo.stored ++ ids) := by
  cases applied h with
  | @fund f newId =>
    have hold : (t.funds ++ [f]).filter (fun g => g.id != f.id) = t.funds := by
      rw [List.filter_append, List.filter_eq_self.mpr fun g hg => ?_]
      · simp
      · simp only [bne_iff_ne]
        intro hgf
        rw [hasFund_iff.mpr ⟨g, hg, hgf⟩] at newId
        cases newId
    exact congrArg (fun funds => { t.without ids with funds }) hold
  | entry | creates => exact removeEntry_putEntry _ ids
  | debit mem =>
    rw [revert, setUnits_without, setUnits_back hids mem]
    rfl
  | credit found =>
    rw [revert, setUnits_without, setUnits_back hids (mem_of_activeOf found).1]
    rfl
  | transfer => exact congrArg (fun transfers => { t.without ids with transfers }) List.dropLast_concat

/-! ## Distinct ids -/

theorem entryIds_setUnits (id : Uuid) (units : Int) (now : Instant) :
    (t.setUnits id units now).entryIds = t.entryIds :=
  setUnits_keeps (·.id) fun _ => rfl

/-- Storing an entry under its id leaves no other entry with this id. -/
theorem entryIds_putEntry (hids : t.entryIds.Nodup) (e : Entry) : (t.putEntry e).entryIds.Nodup := by
  refine nodup_map_concat (hids.sublist (List.filter_sublist.map _)) fun d hd => ?_
  simpa using (List.mem_filter.mp hd).2

theorem entryIds_apply {w : Write} {undo : Undo} (hids : t.entryIds.Nodup)
    (h : t.apply freshId now w = .ok (t', undo)) : t'.entryIds.Nodup := by
  cases applied h with
  | fund | transfer => exact hids
  | entry | creates => exact entryIds_putEntry hids _
  | debit | credit => rwa [entryIds_setUnits]

/-! ## Taking back a journal -/

/-- By induction on the writes: those that were done are taken back in the opposite order, and each
leaves out what it stored. -/
theorem applyAll_error {fresh : Nat → Uuid} {journal : Journal} {undos : List Undo} {v : Violation}
    (hids : t.entryIds.Nodup) (h : t.applyAll fresh now undos journal = (t', .error v)) :
    t' = undos.foldl revert (t.without (t.stored fresh now journal)) := by
  induction journal generalizing fresh t undos with
  | nil => simp [applyAll] at h
  | cons w rest ih =>
    simp only [applyAll] at h
    simp only [stored]
    split at h
    · rename_i next undo happly
      rw [ih (entryIds_apply hids happly) h, List.foldl_cons, revert_apply hids happly, happly]
    · rename_i happly
      rw [happly]
      dsimp only
      rw [without_nil]
      exact ((Prod.mk.injEq _ _ _ _).mp h).1.symm

/-- A refused commit changes nothing, except that it loses the entries whose ids were used again. -/
theorem commit_error {fresh : Nat → Uuid} {journal : Journal} {v : Violation}
    (hids : t.entryIds.Nodup) (h : t.commit fresh now journal = (t', .error v)) :
    t' = t.without (t.stored fresh now journal) :=
  applyAll_error hids h

/-- A commit leaves no two entries with one id, whether it is refused or not. -/
theorem entryIds_commit (fresh : Nat → Uuid) (now : Instant) (journal : Journal)
    (hids : t.entryIds.Nodup) : (t.commit fresh now journal).1.entryIds.Nodup := by
  rcases h : t.commit fresh now journal with ⟨t', v | u⟩
  · rw [commit_error hids h]
    exact hids.sublist (List.filter_sublist.map _)
  · exact applyAll_keeps hids (fun _ _ _ _ _ _ hids happly => entryIds_apply hids happly) h

/-- What a write stores is among what it may create. -/
theorem stored_apply {w : Write} {undo : Undo} (h : t.apply freshId now w = .ok (t', undo)) :
    undo.stored ⊆ w.created freshId := by
  cases applied h with
  | credit => exact List.nil_subset _
  | _ => exact List.Subset.refl _

theorem stored_subset (fresh : Nat → Uuid) (now : Instant) (t : Tables) (journal : Journal) :
    t.stored fresh now journal ⊆ Journal.created fresh journal := by
  induction journal generalizing fresh t with
  | nil => exact List.Subset.refl _
  | cons w rest ih =>
    simp only [stored, Journal.created]
    split
    · exact List.nil_subset _
    · rename_i happly
      exact List.append_subset.mpr ⟨List.subset_append_of_subset_left _ (stored_apply happly),
        List.subset_append_of_subset_right _ (ih _ _)⟩

/-- A refused commit that may create entries under new ids only changes nothing. -/
theorem commit_error_of_new {fresh : Nat → Uuid} {journal : Journal} {v : Violation}
    (hids : t.entryIds.Nodup) (hnew : ∀ id ∈ Journal.created fresh journal, id ∉ t.entryIds)
    (h : t.commit fresh now journal = (t', .error v)) : t' = t := by
  rw [commit_error hids h]
  exact without_eq_self.mpr fun id hid => hnew id (stored_subset fresh now t journal hid)

end Tables

end UnitLedger.Memory
