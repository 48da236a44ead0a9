import UnitLedger.Proofs.Concurrent.Ascending
import UnitLedger.Proofs.Memory.Eras
import UnitLedger.Proofs.Transactions.NetEffect

/-!
  UnitLedger.Proofs.Transactions.OwnWrites — what the locking read sees of the transaction's own writes.

  The locking read lays the pending writes over the committed entry of an owner, or over the entry that
  the transaction has created, and clamps where the commit checks. When the commit would go through, the
  two agree (`Turnover`), so what is read is what the commit will leave: in the order of the owners'
  names, with the units of afterwards (`locked_read_foresees`).

  It does so for every owner but those whom pending credits alone will give an entry. The commit creates
  that entry, and a transfer to such an owner is accepted as one to an owner with an entry, but the
  locking read passes the owner over (`locked_read_misses`).
-/

namespace UnitLedger.Memory

open Tables (repriced)

variable {p : Party}

/-! ## Locks that nobody else holds -/

def RowLocks.FreeFor (ls : RowLocks) (p : Party) (row : Uuid) : Prop :=
  ∀ q, q ≠ p → ls.holds q row = false

/-- A lock that no other party holds is given at once, and then every row is free for the party that was
free before. -/
theorem RowLocks.acquire_freeFor {ls : RowLocks} {row : Uuid} (h : ls.FreeFor p row) :
    ∃ ls', ls.acquire p row = (ls', true) ∧ ∀ r, ls.FreeFor p r → ls'.FreeFor p r := by
  unfold acquire
  split
  · exact ⟨ls, rfl, fun _ hr => hr⟩
  · rename_i hnot
    cases hcurrent : ls.current row with
    | none =>
      refine ⟨_, rfl, fun r hr q hq => ?_⟩
      have hold := hr q hq
      simp only [holds, List.any_append, Bool.or_eq_false_iff] at hold ⊢
      exact ⟨hold, by simp [Ne.symm hq]⟩
    | some l =>
      -- Whoever holds the row's lock is the party itself.
      have hl := List.mem_of_find?_eq_some hcurrent
      have hrow := List.find?_some hcurrent
      simp only [Bool.and_eq_true, beq_iff_eq] at hrow
      have hholds : ls.holds l.holder row = true := holds_iff_exists.mpr ⟨l, hl, hrow.1, rfl⟩
      by_cases hp : l.holder = p
      · exact absurd (hp ▸ hholds) hnot
      · rw [h _ hp] at hholds
        cases hholds

namespace World

/-- The entry of an owner as the party sees it: the committed one, or one that it has created, with its
pending writes laid over it. -/
def seen (w : World) (p : Party) (fund : Uuid) (owner : String) : Option Entry :=
  ((w.tables.activeOf fund owner).or ((w.journal p).createdEntry fund owner)).map
    (w.journal p).overlay

/-- Where no other party holds the rows, the locking read answers at once what the party sees. -/
theorem lockRows_freeFor (fund : Uuid) (owners : List String) {w : World} (locked : List Entry)
    (keyed : w.tables.Keyed) (h : ∀ owner ∈ owners, ∀ e, w.tables.activeOf fund owner = some e →
      w.locks.FreeFor p e.id) :
    ∃ locks, lockRows p fund w owners locked =
      ({ w with locks }, .inl (.ok (locked ++ owners.filterMap (w.seen p fund)))) := by
  induction owners generalizing w locked with
  | nil => exact ⟨w.locks, by simp [lockRows]⟩
  | cons owner rest ih =>
    unfold lockRows
    cases he : w.tables.activeOf fund owner with
    | none =>
      obtain ⟨locks, hrest⟩ := ih (locked ++ ((w.journal p).createdEntry fund owner).toList.map
        (w.journal p).overlay) keyed fun o ho => h o (List.mem_cons_of_mem _ ho)
      refine ⟨locks, hrest.trans ?_⟩
      have hseen : w.seen p fund owner =
          ((w.journal p).createdEntry fund owner).map (w.journal p).overlay := by
        rw [seen, he, Option.none_or]
      rw [List.filterMap_cons, hseen]
      cases (w.journal p).createdEntry fund owner <;> simp
    | some e =>
      obtain ⟨locks, hacquire, hfree⟩ := RowLocks.acquire_freeFor (h owner List.mem_cons_self e he)
      obtain ⟨hmem, -, -, hactive⟩ := Tables.mem_of_activeOf he
      have hread : w.reread p e.id = [(w.journal p).overlay e] := by
        have hfound := keyed.entryById_eq_some.mpr ⟨hmem, rfl⟩
        simp [reread, hfound, Option.filter, hactive]
      obtain ⟨locks', hrest⟩ := ih (w := { w with locks }) (locked ++ [(w.journal p).overlay e]) keyed
        fun o ho d hd => hfree _ (h o (List.mem_cons_of_mem _ ho) d hd)
      refine ⟨locks', ?_⟩
      have hseen : w.seen p fund owner = some ((w.journal p).overlay e) := by
        rw [seen, he, Option.some_or, Option.map_some]
      dsimp only
      rw [hacquire]
      dsimp only
      rw [hread, hrest, List.filterMap_cons, hseen, List.append_assoc]
      rfl

theorem mem_lockOrder_iff {owner : String} {owners : List String} :
    owner ∈ lockOrder owners ↔ owner ∈ owners := by
  induction owners with
  | nil => exact Iff.rfl
  | cons first rest ih => rw [List.mem_cons, ← ih]; exact mem_insertOwner

/-- The party's commit would give the owner an entry by its credits alone: the owner has none, and the
transaction creates none. -/
def OnlyCredits (w : World) (p : Party) (fund : Uuid) (owner : String) : Prop :=
  w.tables.activeOf fund owner = none ∧ (w.journal p).createdEntry fund owner = none ∧
    (w.journal p).credits fund owner = true

instance (w : World) (p : Party) (fund : Uuid) (owner : String) :
    Decidable (w.OnlyCredits p fund owner) :=
  inferInstanceAs (Decidable (_ ∧ _ ∧ _))

end World

/-! ## What a transaction sees and what it leaves -/

namespace Turnover

variable {fresh : Nat → Uuid} {j : Journal} {fund : Uuid} {owner : String}
  {before after : Option Entry}

/-- The entry that the pending writes are laid over is the one that the commit leaves, up to its time of
change. -/
theorem foreseen (h : Turnover fresh j fund owner before after) {e : Entry}
    (he : (before.or (j.createdEntry fund owner)).map j.overlay = some e) :
    e.owner = owner ∧ ∃ at_, after = some (repriced e.units at_ e) := by
  cases h with
  | keeps own plain seen =>
    rw [Option.some_or, Option.map_some, seen] at he
    cases he
    exact ⟨(Tables.isActiveOf_iff.mp own).2.1, _, rfl⟩
  | lacks plain =>
    rw [plain] at he
    cases he
  | enters created seen =>
    rw [Option.none_or, created, Option.map_some, seen] at he
    cases he
    exact ⟨(Tables.isActiveOf_iff.mp (Journal.mem_of_createdEntry created).2).2.1, _, rfl⟩
  | earns plain =>
    rw [plain] at he
    cases he

/-- Where there is no such entry, the commit leaves one exactly if it credits the owner. -/
theorem missed (h : Turnover fresh j fund owner before after)
    (hnone : (before.or (j.createdEntry fund owner)).map j.overlay = none) :
    before = none ∧ j.createdEntry fund owner = none ∧
      after.isSome = j.credits fund owner := by
  obtain ⟨hbefore, hcreated⟩ := Option.or_eq_none_iff.mp (Option.map_eq_none_iff.mp hnone)
  refine ⟨hbefore, hcreated, ?_⟩
  rw [h.isSome, hbefore, hcreated]
  rfl

end Turnover

end UnitLedger.Memory

namespace UnitLedger.Transactions

open Memory (Party World Tables Turnover)
open Memory.Tables (repriced)

/-- What a locking read of these owners returns is what they have afterwards: in the strict order of the
owners' names one entry for each of them who will have one, with the units of then, and nothing for the
others. -/
structure Foresees (after : Tables) (fund : Uuid) (owners : List String) (locked : List Entry) :
    Prop where
  ascending : (locked.map (·.owner)).Pairwise (· < ·)
  rows : ∀ e ∈ locked, e.owner ∈ owners ∧
    ∃ at_, after.activeOf fund e.owner = some (repriced e.units at_ e)
  complete : ∀ owner ∈ owners, after.hasActive fund owner = true → ∃ e ∈ locked, e.owner = owner

section Read

variable {w : World} {p : Party} {now : Instant} {fund : Uuid} {owners : List String}

/-- Whom the party sees no entry of although the commit would leave one, the commit gives it by credits
alone. -/
theorem onlyCredits_iff {after : Tables} {owner : String}
    (turnover : Turnover (fun n => w.fresh (w.used + n)) (w.journal p) fund owner
      (w.tables.activeOf fund owner) (after.activeOf fund owner)) :
    w.OnlyCredits p fund owner ↔ w.seen p fund owner = none ∧ after.hasActive fund owner = true := by
  constructor
  · rintro ⟨hnone, hplain, hcredits⟩
    refine ⟨by simp [World.seen, hnone, hplain], ?_⟩
    rw [Tables.hasActive, turnover.isSome, hcredits, Bool.or_true]
  · rintro ⟨hnone, hafter⟩
    obtain ⟨hbefore, hplain, hcredits⟩ := turnover.missed hnone
    exact ⟨hbefore, hplain, hcredits ▸ hafter⟩

variable (owners) in
theorem mem_locked (hown : ∀ owner e, w.seen p fund owner = some e → e.owner = owner) (e : Entry) :
    e ∈ (World.lockOrder owners).filterMap (w.seen p fund) ↔
      e.owner ∈ owners ∧ w.seen p fund e.owner = some e := by
  rw [List.mem_filterMap]
  constructor
  · rintro ⟨owner, howner, he⟩
    obtain rfl := hown owner e he
    exact ⟨World.mem_lockOrder_iff.mp howner, he⟩
  · rintro ⟨howner, he⟩
    exact ⟨e.owner, World.mem_lockOrder_iff.mpr howner, he⟩

/-- The locking read of a transaction whose commit would go through, on rows that nobody else holds,
answers at once and changes nothing but locks. It foresees the commit for all owners but those who will
have their entry by credits alone; so it foresees it for all that it is asked for exactly if none of
them is such an owner. -/
theorem locked_read_foresees (reached : Reached w.tables)
    (new : (w.journal p).NewIds (fun n => w.fresh (w.used + n)) w.tables)
    (goes : (w.commitTx p now).2 = .ok ())
    (free : ∀ owner ∈ owners, ∀ e, w.tables.activeOf fund owner = some e → w.locks.FreeFor p e.id)
    (asked : Instant) :
    let after := (w.commitTx p now).1.tables
    ∃ locks locked,
      w.start p asked (.lockEntries fund owners) = ({ w with locks }, .answered (.ok locked)) ∧
        Foresees after fund (owners.filter fun owner => ¬ w.OnlyCredits p fund owner) locked ∧
        (Foresees after fund owners locked ↔ ∀ owner ∈ owners, ¬ w.OnlyCredits p fund owner) := by
  intro after
  have keyed := reached.consistent.keyed
  have hturnover := fun owner =>
    Tables.commit_turnover keyed new (World.commitTx_ok.mp goes) fund owner
  have hforeseen := fun owner e (he : w.seen p fund owner = some e) => (hturnover owner).foreseen he
  obtain ⟨locks, hrun⟩ := World.lockRows_freeFor fund (World.lockOrder owners) (p := p) [] keyed
    fun owner howner => free owner (World.mem_lockOrder_iff.mp howner)
  rw [List.nil_append] at hrun
  have hmem := mem_locked owners fun owner e he => (hforeseen owner e he).1
  have hforesees : Foresees after fund (owners.filter fun owner => ¬ w.OnlyCredits p fund owner)
      ((World.lockOrder owners).filterMap (w.seen p fund)) := by
    refine ⟨?_, fun e he => ?_, fun owner howner hafter => ?_⟩
    · refine List.pairwise_map.mpr ((World.lockOrder_ascending owners).filterMap _ ?_)
      intro a b hlt d hd e he
      rwa [(hforeseen a d hd).1, (hforeseen b e he).1]
    · obtain ⟨howner, hseen⟩ := (hmem e).mp he
      refine ⟨List.mem_filter.mpr ⟨howner, ?_⟩, (hforeseen _ e hseen).2⟩
      simp [onlyCredits_iff (hturnover e.owner), hseen]
    · obtain ⟨howner, hother⟩ := List.mem_filter.mp howner
      cases hseen : w.seen p fund owner with
      | none =>
        have honly := (onlyCredits_iff (hturnover owner)).mpr ⟨hseen, hafter⟩
        simp [honly] at hother
      | some e =>
        obtain ⟨rfl, -⟩ := hforeseen owner e hseen
        exact ⟨e, (hmem e).mpr ⟨howner, hseen⟩, rfl⟩
  refine ⟨locks, _, ?_, hforesees, fun hall owner howner honly => ?_, fun hnone => ?_⟩
  · rw [World.start, hrun]
    rfl
  · obtain ⟨hseen, hafter⟩ := (onlyCredits_iff (hturnover owner)).mp honly
    obtain ⟨e, he, rfl⟩ := hall.complete owner howner hafter
    rw [((hmem e).mp he).2] at hseen
    cases hseen
  · rwa [List.filter_eq_self.mpr fun owner howner => by simpa using hnone owner howner] at hforesees

end Read

/-! ## An owner who is passed over -/

/-- Nobody holds a lock, so Ada's row is free; her entry is read with its debit, and Dan's, which the
transaction has created, with a credit and a debit. -/
theorem shuffled_foreseen :
    let w := ((State.opened (fun n => Uuid.ofNat (n + 100)) {}).run shuffled).world
    w.locks.held = [] ∧ (∀ owner ∈ ["Dan", "Ada", "Eve"], ¬ w.OnlyCredits 1 hull.id owner) ∧
      ∃ w' locked,
        w.start 1 ⟨2⟩ (.lockEntries hull.id ["Dan", "Ada", "Eve"]) = (w', .answered (.ok locked)) ∧
          Foresees (w.commitTx 1 ⟨2⟩).1.tables hull.id ["Dan", "Ada", "Eve"] locked := by
  intro w
  have hheld : w.locks.held = [] := by decide +kernel
  have hnone : ∀ owner ∈ ["Dan", "Ada", "Eve"], ¬ w.OnlyCredits 1 hull.id owner := by decide +kernel
  have hfree : ∀ e : Entry, w.locks.FreeFor 1 e.id := fun e q _ => by
    simp [Memory.RowLocks.holds, hheld]
  obtain ⟨locks, locked, hrun, -, hforesees⟩ :=
    @locked_read_foresees w 1 ⟨2⟩ hull.id ["Dan", "Ada", "Eve"] ⟨_, _, rfl⟩
      ⟨by decide +kernel, by decide +kernel⟩ (by decide +kernel) (fun _ _ e _ => hfree e) ⟨2⟩
  exact ⟨hheld, hnone, { w with locks }, locked, hrun, hforesees.mpr hnone⟩

def credited : List Act :=
  founding 0 hull adas ++ [.ask 1 .openTx ⟨1⟩, .ask 1 (.credit hull.id "Ben" 5) ⟨1⟩]

/-- The locking read does not always foresee the commit: Ben, whose entry the commit creates, is not
found. -/
theorem locked_read_misses : ¬ ∀ (w : World) (p : Party) (now asked : Instant) (fund : Uuid)
    (owners : List String), Reached w.tables →
    (w.journal p).NewIds (fun n => w.fresh (w.used + n)) w.tables → (w.commitTx p now).2 = .ok () →
    (∀ owner ∈ owners, ∀ e, w.tables.activeOf fund owner = some e → w.locks.FreeFor p e.id) →
    ∃ w' locked, w.start p asked (.lockEntries fund owners) = (w', .answered (.ok locked)) ∧
      Foresees (w.commitTx p now).1.tables fund owners locked := by
  intro h
  have hheld : ((State.opened (fun n => Uuid.ofNat (n + 100)) {}).run credited).world.locks.held = [] := by
    decide +kernel
  obtain ⟨w', locked, hrun, hforesees⟩ := h
    ((State.opened (fun n => Uuid.ofNat (n + 100)) {}).run credited).world 1 ⟨2⟩ ⟨2⟩ hull.id ["Ben"]
    ⟨_, _, rfl⟩ ⟨by decide +kernel, by decide +kernel⟩ (by decide +kernel)
    (fun _ _ e _ q _ => by simp [Memory.RowLocks.holds, hheld])
  have hnothing : locked = [] := by
    cases hrun
    rfl
  obtain ⟨e, he, -⟩ := hforesees.complete "Ben" (List.mem_singleton_self _) (by decide +kernel)
  rw [hnothing] at he
  cases he

end UnitLedger.Transactions
