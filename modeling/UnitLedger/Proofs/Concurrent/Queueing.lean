import UnitLedger.Proofs.Concurrent.Locking
import UnitLedger.Proofs.Memory.Eras

/-!
  UnitLedger.Proofs.Concurrent.Queueing — what the turns of a call do to the lines of the row locks.

  A transfer asks for locks of committed rows only. While it is inside its transaction it comes to the
  end of lines, and nothing takes it out of them but its own end or its giving up (`Move.asks`,
  `Move.acts`). When locking rows comes to its end, the transfer leads the line of every row that it
  found; when it pauses, it leads those found so far and stands in the line of the next
  (`lockRows_headed`).
-/

namespace UnitLedger.Memory.World

open RowLocks (Acquires Asks Acts Sane)

variable {p : Party}

def Headed (t : Tables) (fund : Uuid) (owners : List String) (p : Party) (ls ls' : RowLocks) :
    Except StoreError (List Entry) ⊕ (Uuid × List String × List Entry) → Prop
  | .inl _ => ∀ e ∈ found t fund owners, (ls'.line e.id).head? = some p
  | .inr (row, rest, _) => ∃ done owner, owners = done ++ owner :: rest ∧ p ∈ ls'.line row ∧
      (∀ e ∈ found t fund done, (ls'.line e.id).head? = some p) ∧
      ∀ r, p ∈ ls'.line r → p ∈ ls.line r ∨ r = row ∨ ∃ e ∈ found t fund done, e.id = r

theorem mem_entryIds_of_activeOf {t : Tables} {fund : Uuid} {owner : String} {e : Entry}
    (h : t.activeOf fund owner = some e) : e.id ∈ t.entryIds :=
  List.mem_map_of_mem (Tables.mem_of_activeOf h).1

/-- Locking rows asks for locks of committed rows. -/
theorem lockRows_acquires (fund : Uuid) (owners : List String) (w : World) (locked : List Entry) :
    Acquires p w.tables.entryIds w.locks (lockRows p fund w owners locked).1.locks := by
  induction owners generalizing w locked with
  | nil => exact .refl
  | cons owner rest ih =>
    unfold lockRows
    cases he : w.tables.activeOf fund owner with
    | none => exact ih w _
    | some e =>
      have hasks := Acquires.single w.locks p (mem_entryIds_of_activeOf he)
      dsimp only
      rcases hacq : w.locks.acquire p e.id with ⟨locks, _ | _⟩ <;> rw [hacq] at hasks
      · exact hasks
      · exact hasks.trans (ih { w with locks } _)

/-- In one era this brings the party to the end of lines, and changes nothing else. -/
theorem lockRows_asks (fund : Uuid) (owners : List String) {w : World} (locked : List Entry)
    (sane : w.locks.Sane w.tables.entryIds) :
    Asks p w.tables.entryIds w.locks (lockRows p fund w owners locked).1.locks :=
  (lockRows_acquires fund owners w locked).asks sane

theorem lockRows_headed (fund : Uuid) (owners : List String) {w : World} (locked : List Entry)
    (sane : w.locks.Sane w.tables.entryIds) :
    Headed w.tables fund owners p w.locks (lockRows p fund w owners locked).1.locks
      (lockRows p fund w owners locked).2 := by
  induction owners generalizing w locked with
  | nil => simp [lockRows, Headed, found]
  | cons owner rest ih =>
    unfold lockRows
    cases he : w.tables.activeOf fund owner with
    | none =>
      have hfound : ∀ owners', found w.tables fund (owner :: owners') =
          found w.tables fund owners' := fun owners' => List.filterMap_cons_none he
      have hrest := ih (w := w)
        (locked ++ ((w.journal p).createdEntry fund owner).toList.map (w.journal p).overlay) sane
      dsimp only
      revert hrest
      rcases lockRows p fund w rest _ with ⟨w', r | ⟨row, rest', locked'⟩⟩
      · intro hrest
        simpa [Headed, hfound] using hrest
      · rintro ⟨done, owner', rfl, hmem, hheads, hrows⟩
        exact ⟨owner :: done, owner', rfl, hmem, by rwa [hfound], by simpa [hfound] using hrows⟩
    | some e =>
      have hid := mem_entryIds_of_activeOf he
      have hlive := sane.live _ hid
      have hasks := Asks.acquire (p := p) sane hid
      have hgranted := RowLocks.acquire_granted (p := p) sane.tidy hlive
      have hline := RowLocks.line_acquire (p := p) sane.tidy hlive
      dsimp only
      rcases hacq : w.locks.acquire p e.id with ⟨locks, _ | _⟩ <;>
        simp only [hacq] at hasks hgranted hline
      · -- The lock is busy: the party has come to the end of this line and of no other.
        have hmem : ∀ r, p ∈ locks.line r → p ∈ w.locks.line r ∨ r = e.id := by
          intro r hr
          rw [hline] at hr
          split at hr
          · rename_i hcase
            exact Or.inr hcase.1
          · exact Or.inl hr
        have hrow : p ∈ locks.line e.id := by
          rw [hline]
          split
          · simp
          · rename_i hcase
            exact List.mem_of_mem_head? (by simpa using hcase)
        refine ⟨[], owner, rfl, hrow, by simp [found], fun r hr => ?_⟩
        exact (hmem r hr).imp_right Or.inl
      · have hhead : (locks.line e.id).head? = some p := by simpa using hgranted
        have hfound : ∀ owners', found w.tables fund (owner :: owners') =
            e :: found w.tables fund owners' := fun owners' => List.filterMap_cons_some he
        have hlater := lockRows_asks (p := p) fund rest (w := { w with locks })
          (locked ++ reread w p e.id) hasks.sane
        have hrest := ih (w := { w with locks }) (locked ++ reread w p e.id) hasks.sane
        dsimp only
        revert hrest hlater
        rcases lockRows p fund { w with locks } rest _ with ⟨w', r | ⟨row, rest', locked'⟩⟩
        · intro hlater hrest
          simp only [Headed, hfound, List.forall_mem_cons]
          exact ⟨hlater.head hhead, hrest⟩
        · rintro hlater ⟨done, owner', rfl, hmem, hheads, hrows⟩
          refine ⟨owner :: done, owner', rfl, hmem, ?_, ?_⟩
          · simp only [hfound, List.forall_mem_cons]
            exact ⟨hlater.head hhead, hheads⟩
          · intro r hr
            simp only [hfound, List.exists_mem_cons_iff]
            rcases hrows r hr with hold | hrow | hdone
            · have hold : p ∈ locks.line r := hold
              rw [hline] at hold
              split at hold
              · rename_i hcase
                exact Or.inr (Or.inr (Or.inl hcase.1.symm))
              · exact Or.inl hold
            · exact Or.inr (Or.inl hrow)
            · exact Or.inr (Or.inr (Or.inr hdone))

end UnitLedger.Memory.World

namespace UnitLedger.Concurrent.Stage

open Memory (Party World)
open Memory.RowLocks (Acquires Asks Acts Sane)
open Store (Op)

variable {w w' : World} {p : Party} {now : Instant} {σ σ' : Stage} {answered : Option Op}

/-- The entries whose rows the transfer has locked, as it read them. -/
def holding : Stage → List Entry
  | lockWaiting _ _ _ locked => locked
  | debiting _ source | crediting _ source | creditWaiting _ source | appending _ source
  | committing _ source _ => [source]
  | _ => []

def Locks : Stage → Prop
  | lockWaiting _ _ _ _ | debiting _ _ | crediting _ _ | creditWaiting _ _ | appending _ _
  | committing _ _ _ => True
  | _ => False

theorem locks_of_holding {e : Entry} (h : e ∈ σ.holding) : σ.Locks := by
  cases σ <;> trivial

theorem mem_holding_of_source? {o : TransferOrder} {e : Entry} (h : σ.source? = some (o, e)) :
    e ∈ σ.holding := by
  cases σ <;> cases h <;> exact List.mem_singleton_self _

theorem Locks.journal? (h : σ.Locks) : σ.journal? ≠ none := by
  cases σ <;> first | exact False.elim h | simp [Stage.journal?]

theorem lockRun_acquires {o : TransferOrder} {r : LockResult}
    (h : σ.lockRun w p = some (o, w', r)) : Acquires p w.tables.entryIds w.locks w'.locks := by
  obtain ⟨owners, first, run⟩ := lockRun_rows h
  have hacquires := World.lockRows_acquires (p := p) o.fund owners w first
  rwa [run] at hacquires

theorem lockRun_asks {o : TransferOrder} {r : LockResult}
    (h : σ.lockRun w p = some (o, w', r)) (sane : w.locks.Sane w.tables.entryIds) :
    Asks p w.tables.entryIds w.locks w'.locks :=
  (lockRun_acquires h).asks sane

theorem acquire_acquires {fund : Uuid} {owner : String} {d : Entry} {locks : Memory.RowLocks}
    {b : Bool} (target : w.tables.activeOf fund owner = some d)
    (h : w.locks.acquire p d.id = (locks, b)) : Acquires p w.tables.entryIds w.locks locks := by
  have hacquires := Acquires.single w.locks p (World.mem_entryIds_of_activeOf target)
  rwa [h] at hacquires

theorem acquire_asks {fund : Uuid} {owner : String} {d : Entry} {locks : Memory.RowLocks} {b : Bool}
    (target : w.tables.activeOf fund owner = some d) (h : w.locks.acquire p d.id = (locks, b))
    (sane : w.locks.Sane w.tables.entryIds) : Asks p w.tables.entryIds w.locks locks :=
  (acquire_acquires target h).asks sane

/-- Up to its commit a transfer leaves the tables alone. -/
theorem Move.tables_of_locks (h : Move w p now σ w' σ' answered) (hlocks : σ'.Locks) :
    w'.tables = w.tables := by
  cases h with
  | lockEnough run | lockPause run =>
    obtain ⟨locks, rfl⟩ := lockRun_locks run
    rfl
  | _ => first | rfl | cases hlocks

/-- What a transfer holds it held before, or it has just locked it. -/
theorem Move.holding (h : Move w p now σ w' σ' answered) {e : Entry} (he : e ∈ σ'.holding) :
    e ∈ σ.holding ∨
    (∃ o locked, σ.lockRun w p = some (o, w', .inl (.ok locked)) ∧ e ∈ locked) ∨
    (∃ o row rest locked, σ.lockRun w p = some (o, w', .inr (row, rest, locked)) ∧ e ∈ locked) := by
  cases h with
  | lockEnough run source =>
    obtain rfl := List.mem_singleton.mp he
    exact Or.inr (Or.inl ⟨_, _, run, List.mem_of_find?_eq_some source⟩)
  | lockPause run => exact Or.inr (Or.inr ⟨_, _, _, _, run, he⟩)
  | _ => first | exact Or.inl he | cases he

/-- Up to its commit a transfer only asks for locks. -/
theorem Move.asks (h : Move w p now σ w' σ' answered) (sane : w.locks.Sane w.tables.entryIds)
    (hlocks : σ'.Locks) : Asks p w.tables.entryIds w.locks w'.locks := by
  cases h with
  | lockEnough run | lockPause run => exact lockRun_asks run sane
  | creditLocked target granted => exact acquire_asks target granted sane
  | creditPause target busy => exact acquire_asks target busy sane
  | debit | creditNew | creditGo | append => exact .refl sane
  | _ => first | exact .refl sane | cases hlocks

/-- A move leaves everybody else where they stand. -/
theorem Move.acts (h : Move w p now σ w' σ' answered) (sane : w.locks.Sane w.tables.entryIds)
    (hreset : σ ≠ resetting) : Acts p w.tables.entryIds w.locks w'.locks := by
  cases h with
  | lockNone run | lockShort run | lockEnough run | lockError run | lockPause run =>
    exact (lockRun_asks run sane).acts
  | lockGiveUp | creditGiveUp => exact .leave sane
  | creditLocked target granted => exact (acquire_asks target granted sane).acts
  | creditPause target busy => exact (acquire_asks target busy sane).acts
  | commit | commitRefused | commitBeaten | commitFund | commitFundRefused | repeated | withdraw
  | withdrawBeaten | judge | undoFund => exact .close sane
  | reset => exact absurd rfl hreset
  | _ => exact (Asks.refl sane).acts

end UnitLedger.Concurrent.Stage
