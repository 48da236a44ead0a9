import UnitLedger.Proofs.Transactions.Frame

/-!
  UnitLedger.Proofs.Transactions.Exclusion — who may hold a row's lock, across resets too.

  Within one era of the lock table a row has one lock, and a lock has one holder. The second step of a
  reset begins a new era, in which the row has a new lock; a transaction that is still open keeps what
  it holds of older eras. So two open transactions hold one row exactly in this way (`held_twice`): the
  one asked for it, then a reset emptied the lock table over its head, then the other one asked for it.

  It does happen (`held_twice_happens`), although a reset empties the rows first. The row's id may be
  used again after the reset, or the row may be committed and locked between its two steps.
-/

namespace UnitLedger.Transactions

open Memory (Party RowLocks)

variable {s s' : State} {a : Act} {p q : Party} {row : Uuid} {era : Nat}

/-! ## Lines and open transactions -/

structure Orderly (s : State) : Prop where
  keyed : s.world.locks.Keyed
  waiting : ∀ p, s.waiting p ≠ none → s.isOpen p = true
  standing : ∀ p row era, s.world.locks.InLine p row era → s.isOpen p = true

theorem orderly_opened (fresh : Nat → Uuid) (tables : Memory.Tables) :
    Orderly (State.opened fresh tables) := by
  refine ⟨⟨List.nodup_nil, fun l hl => by cases hl⟩, fun p hp => absurd rfl hp, ?_⟩
  rintro p row era ⟨l, hl, -⟩
  cases hl

/-- Whoever comes to a line asks in this act for a committed row, and comes to the line of its present
lock. -/
theorem LockStep.inLine (h : LockStep s a s') (hq : s'.world.locks.InLine q row era) :
    s.world.locks.InLine q row era ∨
      (a.party? = some q ∧ row ∈ s.world.tables.entryIds ∧ era = s.world.locks.era) := by
  cases h with
  | keeps locks => exact Or.inl (locks ▸ hq)
  | asks p mine _ acquires =>
    rcases acquires.inLine hq with hq | ⟨rfl, hrow, hera⟩
    · exact Or.inl hq
    · exact Or.inr ⟨mine, hrow, hera⟩
  | leaves p locks => exact Or.inl (RowLocks.leave_inLine (locks ▸ hq))
  | closes p _ locks => exact Or.inl (RowLocks.close_inLine (locks ▸ hq)).2
  | clears _ _ world =>
    rw [world] at hq
    exact Or.inl hq

theorem Orderly.step (h : Orderly s) (hs : Step s a s') : Orderly s' := by
  cases hs.lockStep with
  | keeps locks stays waiting =>
    exact ⟨locks ▸ h.keyed, fun q hq => stays q (h.waiting q (waiting q hq)),
      fun q row era hq => stays q (h.standing q row era (locks ▸ hq))⟩
  | asks p mine inTx acquires stays waiting =>
    have hopen : s'.isOpen p = true := stays p (inTx.elim id (h.waiting p))
    refine ⟨h.keyed.acquires acquires, fun q hq => ?_, fun q row era hq => ?_⟩
    · rcases waiting q hq with rfl | hq
      · exact hopen
      · exact stays q (h.waiting q hq)
    · rcases acquires.inLine hq with hq | ⟨rfl, -⟩
      · exact stays q (h.standing q row era hq)
      · exact hopen
  | leaves p locks stays waiting =>
    exact ⟨locks ▸ h.keyed.leave, fun q hq => stays q (h.waiting q (waiting q hq).2),
      fun q row era hq => stays q (h.standing q row era (RowLocks.leave_inLine (locks ▸ hq)))⟩
  | closes p _ locks _ stays waiting =>
    refine ⟨locks ▸ h.keyed.leave.release, fun q hq => ?_, fun q row era hq => ?_⟩
    · obtain ⟨hne, hq⟩ := waiting q hq
      exact stays q hne (h.waiting q hq)
    · obtain ⟨hne, hq⟩ := RowLocks.close_inLine (locks ▸ hq)
      exact stays q hne (h.standing q row era hq)
  | clears _ _ world waiting =>
    refine ⟨world ▸ h.keyed.clear, fun q hq => ?_, fun q row era hq => ?_⟩
    · rw [State.isOpen, world]
      exact h.waiting q (waiting ▸ hq)
    · rw [world] at hq
      rw [State.isOpen, world]
      exact h.standing q row era hq

theorem orderly_run (fresh : Nat → Uuid) (tables : Memory.Tables) (acts : List Act) :
    Orderly ((State.opened fresh tables).run acts) :=
  State.run_history (P := fun _ s => Orderly s) (orderly_opened fresh tables)
    (fun _ _ _ h hs => h.step hs) acts

/-! ## Eras -/

theorem LockStep.eras (h : LockStep s a s') :
    s'.world.locks.era = s.world.locks.era ∨
      (a = .dropLocks ∧ s.resetting ≠ 0 ∧ s'.world.locks.era = s.world.locks.era + 1) := by
  cases h with
  | keeps locks => exact Or.inl (by rw [locks])
  | asks _ _ _ acquires => exact Or.inl acquires.same_era
  | leaves _ locks | closes _ _ locks => exact Or.inl (by rw [locks]; rfl)
  | clears act begun world => exact Or.inr ⟨act, begun, by rw [world]; rfl⟩

theorem State.era_le_run (s : State) (acts : List Act) :
    s.world.locks.era ≤ (s.run acts).world.locks.era := by
  induction acts generalizing s with
  | nil => exact Nat.le_refl _
  | cons a acts ih =>
    refine Nat.le_trans ?_ (ih (s.step a))
    rcases (State.step_step s a).lockStep.eras with h | ⟨-, -, h⟩ <;> omega

/-- A later era was begun by the second step of a reset. -/
theorem State.era_begins (s : State) (acts : List Act)
    (h : s.world.locks.era < (s.run acts).world.locks.era) :
    ∃ x y, acts = x ++ .dropLocks :: y ∧ (s.run x).resetting ≠ 0 := by
  induction acts generalizing s with
  | nil => exact absurd h (Nat.lt_irrefl _)
  | cons a acts ih =>
    rcases (State.step_step s a).lockStep.eras with hsame | ⟨rfl, hbegun, -⟩
    · obtain ⟨x, y, rfl, hbegun⟩ := ih (s.step a) (by rw [hsame]; exact h)
      exact ⟨a :: x, y, rfl, hbegun⟩
    · exact ⟨[], acts, rfl, hbegun⟩

/-! ## How a party came to a line -/

/-- In the act `a` the party asks for the row, which is committed then, and comes to the line of the
row's present lock, in which it has stood ever since. -/
structure Asked (s : State) (before : List Act) (a : Act) (after : List Act) (p : Party)
    (row : Uuid) : Prop where
  mine : a.party? = some p
  present : row ∈ (s.run before).world.tables.entryIds
  stands : ∀ x y, after = x ++ y →
    (s.run (before ++ a :: x)).world.locks.InLine p row (s.run before).world.locks.era

/-- Whoever stands in a line asked for the row, in the era of that lock. -/
theorem asked_of_inLine {fresh : Nat → Uuid} {tables : Memory.Tables} (acts : List Act)
    (h : ((State.opened fresh tables).run acts).world.locks.InLine p row era) :
    ∃ before a after, acts = before ++ a :: after ∧
      Asked (State.opened fresh tables) before a after p row ∧
      ((State.opened fresh tables).run before).world.locks.era = era := by
  induction acts using List.reverseRecOn with
  | nil =>
    obtain ⟨l, hl, -⟩ := h
    cases hl
  | append_singleton acts a ih =>
    have hstep := State.step_step ((State.opened fresh tables).run acts) a
    rw [← State.run_concat] at hstep
    rcases hstep.lockStep.inLine h with hbefore | ⟨hmine, hrow, hera⟩
    · obtain ⟨before, b, after, rfl, hasked, hera⟩ := ih hbefore
      refine ⟨before, b, after ++ [a], by simp, ⟨hasked.mine, hasked.present, ?_⟩, hera⟩
      intro x y hxy
      rcases List.eq_nil_or_concat y with rfl | ⟨y, c, rfl⟩
      · rw [List.append_nil] at hxy
        rw [← hxy, hera]
        simpa using h
      · rw [List.concat_eq_append, ← List.append_assoc] at hxy
        obtain ⟨hxy, -⟩ := List.append_inj' hxy rfl
        exact hasked.stands x y hxy
    · refine ⟨acts, a, [], rfl, ⟨hmine, hrow, fun x y hxy => ?_⟩, hera.symm⟩
      obtain ⟨rfl, rfl⟩ := List.append_eq_nil_iff.mp hxy.symm
      rw [← hera]
      exact h

/-- Of two parties that asked in different eras, a reset emptied the lock table between the two. -/
theorem Asked.reset_between {x x' y y' : List Act} {b : Act} (hasked : Asked s x a y p row)
    (hsplit : x ++ a :: y = x' ++ b :: y')
    (hera : (s.run x).world.locks.era < (s.run x').world.locks.era) :
    ∃ u z, x' = x ++ a :: u ++ .dropLocks :: z ∧ (s.run (x ++ a :: u)).resetting ≠ 0 ∧
      y = u ++ .dropLocks :: z ++ b :: y' := by
  rcases List.append_eq_append_iff.mp hsplit with ⟨w, hx', hy⟩ | ⟨w, hx, -⟩
  · subst hx'
    cases w with
    | nil =>
      rw [List.append_nil] at hera
      exact absurd hera (Nat.lt_irrefl _)
    | cons c w =>
      rw [List.cons_append, List.cons.injEq] at hy
      obtain ⟨rfl, rfl⟩ := hy
      have hafter : (s.run x).world.locks.era < ((s.run x).run (a :: w)).world.locks.era := by
        rwa [← State.run_append]
      obtain ⟨u, z, hw, hbegun⟩ := State.era_begins (s.run x) (a :: w) hafter
      -- The party's own act is not the reset's.
      cases u with
      | nil =>
        obtain ⟨rfl, -⟩ := List.cons.inj hw
        cases hasked.mine
      | cons d u =>
        rw [List.cons_append, List.cons.injEq] at hw
        obtain ⟨rfl, rfl⟩ := hw
        rw [← State.run_append] at hbegun
        exact ⟨u, z, by simp, hbegun, by simp⟩
  · subst hx
    rw [State.run_append] at hera
    exact absurd (State.era_le_run (s.run x') w) (Nat.not_le.mpr hera)

/-! ## Two holders of one row -/

/-- The one asked for the row, a reset emptied the lock table, and then the other one asked. -/
def AskedAcross (s : State) (acts : List Act) (elder younger : Party) (row : Uuid) : Prop :=
  ∃ x a y z b v, acts = x ++ a :: y ++ .dropLocks :: z ++ b :: v ∧
    (s.run (x ++ a :: y)).resetting ≠ 0 ∧
    Asked s x a (y ++ .dropLocks :: z ++ b :: v) elder row ∧
    Asked s (x ++ a :: y ++ .dropLocks :: z) b v younger row

/-- Two parties that hold locks of one row have asked for it on the two sides of a reset's second
step. -/
theorem askedAcross_of_holds {fresh : Nat → Uuid} {tables : Memory.Tables} {acts : List Act}
    (hne : p ≠ q) (hp : ((State.opened fresh tables).run acts).world.locks.holds p row = true)
    (hq : ((State.opened fresh tables).run acts).world.locks.holds q row = true) :
    AskedAcross (State.opened fresh tables) acts p q row ∨
      AskedAcross (State.opened fresh tables) acts q p row := by
  obtain ⟨i, j, hij, hip, hjq⟩ := (orderly_run fresh tables acts).keyed.holds_twice hp hq hne
  obtain ⟨x, a, y, hacts, hasked, rfl⟩ := asked_of_inLine acts hip
  obtain ⟨x', b, y', hacts', hasked', rfl⟩ := asked_of_inLine acts hjq
  rcases Nat.lt_or_gt_of_ne hij with hlt | hlt
  · left
    obtain ⟨u, z, rfl, hbegun, rfl⟩ := hasked.reset_between (hacts.symm.trans hacts') hlt
    exact ⟨x, a, u, z, b, y', hacts', hbegun, hasked, hasked'⟩
  · right
    obtain ⟨u, z, rfl, hbegun, rfl⟩ := hasked'.reset_between (hacts'.symm.trans hacts) hlt
    exact ⟨x', b, u, z, a, y, hacts, hbegun, hasked', hasked⟩

theorem Orderly.isOpen_of_holds (h : Orderly s) (hp : s.world.locks.holds p row = true) :
    s.isOpen p = true := by
  obtain ⟨l, hl, hrow, rfl⟩ := RowLocks.holds_iff_exists.mp hp
  exact h.standing l.holder row l.era ⟨l, hl, hrow, rfl, List.mem_cons_self⟩

/-- Two transactions that hold locks of one row are both open, and a reset emptied the lock table after
the one and before the other had asked for the row. -/
theorem held_twice {fresh : Nat → Uuid} {tables : Memory.Tables} {acts : List Act} (hne : p ≠ q)
    (hp : ((State.opened fresh tables).run acts).world.locks.holds p row = true)
    (hq : ((State.opened fresh tables).run acts).world.locks.holds q row = true) :
    ((State.opened fresh tables).run acts).isOpen p = true ∧
      ((State.opened fresh tables).run acts).isOpen q = true ∧
      (AskedAcross (State.opened fresh tables) acts p q row ∨
        AskedAcross (State.opened fresh tables) acts q p row) :=
  ⟨(orderly_run fresh tables acts).isOpen_of_holds hp,
    (orderly_run fresh tables acts).isOpen_of_holds hq, askedAcross_of_holds hne hp hq⟩

/-- Unless a reset empties the lock table while locks are held, a row has one holder. -/
theorem held_once {fresh : Nat → Uuid} {tables : Memory.Tables} {acts : List Act}
    (calm : ∀ x y, acts = x ++ .dropLocks :: y →
      ((State.opened fresh tables).run x).resetting ≠ 0 →
      ((State.opened fresh tables).run x).world.locks.held = [])
    (hp : ((State.opened fresh tables).run acts).world.locks.holds p row = true)
    (hq : ((State.opened fresh tables).run acts).world.locks.holds q row = true) : p = q := by
  by_contra hne
  -- Whoever asked first stands in a line when the lock table is emptied.
  have hcontra : ∀ elder younger,
      ¬ AskedAcross (State.opened fresh tables) acts elder younger row := by
    rintro elder younger ⟨x, a, y, z, b, v, hacts, hbegun, hasked, -⟩
    obtain ⟨l, hl, -⟩ := hasked.stands y (.dropLocks :: z ++ b :: v) (by simp)
    rw [calm (x ++ a :: y) (z ++ b :: v) (by simp [hacts]) hbegun] at hl
    cases hl
  rcases askedAcross_of_holds hne hp hq with h | h <;> exact hcontra _ _ h

/-! ## A row that is held twice -/

def keel : Fund := { hull with id := Uuid.ofNat 3, name := "Keel" }

/-- Party 1 locks Ada's row and stays open over a reset. Then an entry of another fund gets the id of
that row, and party 3 locks it. -/
def lockedAcross : List Act :=
  founding 0 hull adas ++
    [.ask 1 .openTx ⟨1⟩, .ask 1 (.lockEntries hull.id ["Ada"]) ⟨1⟩, .dropRows, .dropLocks] ++
    founding 2 keel { adas with fund := keel.id } ++
    [.ask 3 .openTx ⟨2⟩, .ask 3 (.lockEntries keel.id ["Ada"]) ⟨2⟩]

theorem lockedAcross_held_twice :
    (1 : Party) ≠ 3 ∧
      ((State.opened Uuid.ofNat {}).run lockedAcross).world.locks.holds 1 adas.id = true ∧
      ((State.opened Uuid.ofNat {}).run lockedAcross).world.locks.holds 3 adas.id = true ∧
      ((State.opened Uuid.ofNat {}).run lockedAcross).isOpen 1 = true ∧
      ((State.opened Uuid.ofNat {}).run lockedAcross).isOpen 3 = true ∧
      (AskedAcross (State.opened Uuid.ofNat {}) lockedAcross 1 3 adas.id ∨
        AskedAcross (State.opened Uuid.ofNat {}) lockedAcross 3 1 adas.id) := by
  have hfirst : ((State.opened Uuid.ofNat {}).run lockedAcross).world.locks.holds 1 adas.id = true := by
    decide +kernel
  have hsecond : ((State.opened Uuid.ofNat {}).run lockedAcross).world.locks.holds 3 adas.id = true := by
    decide +kernel
  exact ⟨by decide, hfirst, hsecond, held_twice (by decide) hfirst hsecond⟩

/-- A row's lock is not always held by one open transaction at most. -/
theorem held_twice_happens : ¬ ∀ fresh tables acts p q row,
    ((State.opened fresh tables).run acts).isOpen p = true →
    ((State.opened fresh tables).run acts).isOpen q = true →
    ((State.opened fresh tables).run acts).world.locks.holds p row = true →
    ((State.opened fresh tables).run acts).world.locks.holds q row = true → p = q := by
  intro h
  have := h Uuid.ofNat {} lockedAcross 1 3 adas.id (by decide +kernel) (by decide +kernel)
    (by decide +kernel) (by decide +kernel)
  cases this

/-- No id is used twice when a fund is founded and locked between the two steps of a reset. -/
example :
    let s := (State.opened Uuid.ofNat {}).run ([.dropRows] ++ founding 0 hull adas ++
      [.ask 1 .openTx ⟨1⟩, .ask 1 (.lockEntries hull.id ["Ada"]) ⟨1⟩, .dropLocks, .ask 2 .openTx ⟨2⟩,
        .ask 2 (.lockEntries hull.id ["Ada"]) ⟨2⟩])
    s.world.locks.holds 1 adas.id = true ∧ s.world.locks.holds 2 adas.id = true := by
  decide +kernel

end UnitLedger.Transactions
