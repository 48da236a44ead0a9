import UnitLedger.Proofs.Transactions.Transferring

/-!
  UnitLedger.Proofs.Transactions.Frozen — what a row's lock keeps from others.

  While a transaction holds the lock of an active entry, other transactions of transfers cannot debit
  it, and they cannot credit it by a credit that they journal now. What can still come in is a `Blind`
  credit: one that was journaled when the owner had no entry, so that there was no row to lock, and is
  committed when another transaction has created the entry and a third one has locked it.

  `held_row` says what this comes to: the committed entry is the one that was locked with the arrivals
  added, locked reads see the same entry through the transaction's own writes, and after its own commit
  the balance is the locked one with the arrivals and its own movements. `held_row_changes` shows an
  arrival.
-/

namespace UnitLedger.Transactions

open Memory (Party World Journal Write RowLocks Tables)

variable {s s' : State} {acts : List Act} {a : Act} {p q : Party} {row : Uuid} {now : Instant}
  {size : Nat}

/-! ## Holding a row -/

/-- Nobody but the holder itself ends its holding. -/
theorem LockStep.head (h : LockStep s a s') (level : s.world.locks.Level) (hreset : a ≠ .dropLocks)
    (hends : ¬ Ends p a) (hhead : (s.world.locks.line row).head? = some p) :
    (s'.world.locks.line row).head? = some p := by
  cases h with
  | keeps locks => exact locks ▸ hhead
  | asks q _ _ acquires => exact (acquires.asks (level.sane _)).head hhead
  | leaves q locks =>
    rw [locks, RowLocks.line_leave, hhead]
    rfl
  | closes q ends locks =>
    have hne : p ≠ q := by
      rintro rfl
      exact hends ends
    have hacts := RowLocks.Acts.close (p := q) (level.sane [])
    rw [← locks] at hacts
    exact hacts.heads row p hne hhead
  | clears act => exact absurd act hreset

/-! ## Arrivals -/

namespace State

/-- The units that the act brings the owner, if it is a commit of another party. -/
def arrival (s : State) (p : Party) (fund : Uuid) (owner : String) : Act → Int
  | .ask q .commit now =>
    if q ≠ p ∧ s.commits q now = true then (s.world.journal q).incoming fund owner else 0
  | _ => 0

def arrivals (s : State) (p : Party) (fund : Uuid) (owner : String) : List Act → Int
  | [] => 0
  | a :: acts => s.arrival p fund owner a + (s.step a).arrivals p fund owner acts

theorem arrivals_concat (s : State) (p : Party) (fund : Uuid) (owner : String) (acts : List Act)
    (a : Act) : s.arrivals p fund owner (acts ++ [a]) =
      s.arrivals p fund owner acts + (s.run acts).arrival p fund owner a := by
  induction acts generalizing s with
  | nil => simp [arrivals, run]
  | cons b acts ih =>
    simp only [List.cons_append, arrivals, ih, run_cons]
    omega

end State

/-- Only who leads a row's line has debited it. -/
theorem Settling.outgoing_eq_zero (h : Settling s acts)
    (hhead : ((s.run acts).world.locks.line row).head? = some p) (hne : q ≠ p) :
    ((s.run acts).world.journal q).outgoing row = 0 := by
  refine Journal.outgoing_eq_zero fun units hmem => ?_
  rw [h.debits q row units hmem] at hhead
  exact hne (Option.some.inj hhead)

/-- A commit that goes through changes the active entry by what its journal moves. -/
theorem Settling.commits_balance (h : Settling s acts) (new : NewIds s size)
    (enough : (s.run acts).world.used + ((s.run acts).world.journal p).length ≤ size)
    (done : ((s.run acts).world.commitTx p now).2 = .ok ()) {e : Entry}
    (he : e ∈ (s.run acts).world.tables.entries) (hactive : e.isActive = true) :
    ∃ at_, Tables.repriced (e.units - ((s.run acts).world.journal p).outgoing e.id +
      ((s.run acts).world.journal p).incoming e.fund e.owner) at_ e ∈
        ((s.run acts).committed p now).entries := by
  rcases h.commit new p now enough with ⟨hfailed, -⟩ | ⟨-, hbalances, -⟩
  · exact absurd done hfailed
  · exact hbalances e he hactive

/-- Only a commit that goes through brings units. -/
theorem State.arrival_eq_zero {fund : Uuid} {owner : String}
    (hnone : ∀ q now, a = .ask q .commit now → s.commits q now = false) :
    s.arrival p fund owner a = 0 := by
  unfold State.arrival
  split
  · rename_i q now
    simp [hnone q now rfl]
  · rfl

/-- Only a commit that goes through changes the tables. -/
theorem Settling.tables_keep (h : Settling s acts) (new : NewIds s size)
    (ha : (s.run acts).transfers a = true) (enough : (s.run (acts ++ [a])).world.used ≤ size)
    (hnone : ∀ q now, a = .ask q .commit now → (s.run acts).commits q now = false) :
    (s.run (acts ++ [a])).world.tables = (s.run acts).world.tables := by
  rw [State.run_concat] at enough ⊢
  rcases (State.step_step (s.run acts) a).tables with htables | ⟨q, t, rfl, htables, hused⟩ | ⟨rfl, -⟩
  · exact htables
  · rcases h.commit new q t (hused ▸ enough) with ⟨-, hrefused⟩ | ⟨hok, -⟩
    · exact htables.trans hrefused
    · have hallowed : ¬ (s.run acts).allows q .commit = true := fun hallowed => by
        simpa [State.commits_iff.mpr ⟨hallowed, hok⟩] using hnone q t rfl
      rw [State.step, if_neg hallowed]
  · cases ha

/-- One act of the others, or of the holder that does not end its transaction: the entry gets what
arrives. -/
theorem Settling.arrives (h : Settling s acts) (new : NewIds s size)
    (ha : (s.run acts).transfers a = true) (enough : (s.run (acts ++ [a])).world.used ≤ size)
    (hends : ¬ Ends p a) {e : Entry} (he : e ∈ (s.run acts).world.tables.entries)
    (hactive : e.isActive = true)
    (hhead : ((s.run acts).world.locks.line e.id).head? = some p) :
    ∃ at_, Tables.repriced (e.units + (s.run acts).arrival p e.fund e.owner a) at_ e ∈
      (s.run (acts ++ [a])).world.tables.entries := by
  by_cases hcommit : ∃ q now, a = .ask q .commit now ∧ (s.run acts).commits q now = true
  · obtain ⟨q, t, rfl, hcommits⟩ := hcommit
    obtain ⟨hallowed, hdone⟩ := State.commits_iff.mp hcommits
    have hne : q ≠ p := by
      rintro rfl
      exact hends .commit
    have hrun : s.run (acts ++ [.ask q .commit t]) =
        (s.run acts).put q ((s.run acts).world.commitTx q t).1 := by
      rw [State.run_concat, State.step, if_pos hallowed]
      rfl
    rw [hrun] at enough ⊢
    have harrival : (s.run acts).arrival p e.fund e.owner (.ask q .commit t) =
        ((s.run acts).world.journal q).incoming e.fund e.owner := by
      simp [State.arrival, hne, hcommits]
    obtain ⟨at_, hmem⟩ := h.commits_balance new enough hdone he hactive
    rw [h.outgoing_eq_zero hhead hne, Int.sub_zero] at hmem
    exact ⟨at_, harrival ▸ hmem⟩
  · have hnone : ∀ q now, a = .ask q .commit now → (s.run acts).commits q now = false :=
      fun q now heq => Bool.eq_false_iff.mpr fun hcommits => hcommit ⟨q, now, heq, hcommits⟩
    rw [State.arrival_eq_zero hnone, Int.add_zero, h.tables_keep new ha enough hnone]
    exact ⟨e.updatedAt, he⟩

/-! ## The row while it is held -/

/-- After `before` the party holds the lock of the active entry `e`, and during `during` it does not end
its transaction; all transactions are of transfers, and the ids that commits may use are new. -/
structure Holding (fresh : Nat → Uuid) (tables : Tables) (before during : List Act) (p : Party)
    (e : Entry) : Prop where
  keyed : tables.Keyed
  new : NewIds (State.opened fresh tables)
    (((State.opened fresh tables).run (before ++ during)).world.used +
      (((State.opened fresh tables).run (before ++ during)).world.journal p).length)
  transfers : (State.opened fresh tables).transferring (before ++ during) = true
  found : ((State.opened fresh tables).run before).world.tables.entryById e.id = some e
  active : e.isActive = true
  holds : ((State.opened fresh tables).run before).world.locks.holds p e.id = true
  goesOn : ∀ a ∈ during, ¬ Ends p a

variable {fresh : Nat → Uuid} {tables : Tables} {before during : List Act} {e : Entry}

/-- No part of a run uses more ids than the whole of it. -/
theorem used_le_part (fresh : Nat → Uuid) (tables : Tables) (before : List Act) (p : Party)
    {x y : List Act} (hx : during = x ++ y) :
    ((State.opened fresh tables).run (before ++ x)).world.used ≤
      ((State.opened fresh tables).run (before ++ during)).world.used +
        (((State.opened fresh tables).run (before ++ during)).world.journal p).length := by
  have hused := State.used_le_run ((State.opened fresh tables).run (before ++ x)) y
  rw [← State.run_append, List.append_assoc, ← hx] at hused
  exact Nat.le_trans hused (Nat.le_add_right _ _)

namespace Holding

/-- Every part of the run is settling. -/
theorem settling (h : Holding fresh tables before during p e) {x y : List Act}
    (hx : during = x ++ y) : Settling (State.opened fresh tables) (before ++ x) := by
  have htransfers := h.transfers
  rw [hx, ← List.append_assoc, State.transferring_append, Bool.and_eq_true] at htransfers
  exact settling_run h.keyed _ htransfers.1 h.new (used_le_part _ _ _ _ hx)

/-- The holder leads the row's line all the time, and the entry has what has arrived. -/
theorem entry (h : Holding fresh tables before during p e) {x y : List Act} (hx : during = x ++ y) :
    (((State.opened fresh tables).run (before ++ x)).world.locks.line e.id).head? = some p ∧
      ∃ at_, Tables.repriced
        (e.units + ((State.opened fresh tables).run before).arrivals p e.fund e.owner x) at_ e ∈
          ((State.opened fresh tables).run (before ++ x)).world.tables.entries := by
  induction x using List.reverseRecOn generalizing y with
  | nil =>
    have hbefore := h.settling (x := []) rfl
    rw [List.append_nil] at hbefore ⊢
    exact ⟨(RowLocks.holds_iff hbefore.level.tidy).mp h.holds, e.updatedAt,
      by simpa [State.arrivals] using (Tables.mem_of_entryById h.found).1⟩
  | append_singleton x a ih =>
    have hused := used_le_part fresh tables before p hx
    rw [List.append_assoc] at hx
    obtain ⟨hhead, at_, hmem⟩ := ih hx
    have hsettling := h.settling hx
    have hends : ¬ Ends p a := h.goesOn a (by simp [hx])
    have ha : ((State.opened fresh tables).run (before ++ x)).transfers a = true := by
      have htransfers := h.transfers
      rw [hx, ← List.append_assoc] at htransfers
      exact State.transfers_of_transferring htransfers
    rw [← List.append_assoc] at hused ⊢
    refine ⟨?_, ?_⟩
    · have hstep := State.step_step ((State.opened fresh tables).run (before ++ x)) a
      rw [← State.run_concat] at hstep
      refine hstep.lockStep.head hsettling.level ?_ hends hhead
      rintro rfl
      cases ha
    · obtain ⟨at', hlast⟩ := hsettling.arrives h.new ha hused hends hmem h.active hhead
      refine ⟨at', ?_⟩
      rw [State.arrivals_concat, ← State.run_append, ← Int.add_assoc]
      exact hlast

end Holding

/-- While a transaction holds the lock of an active entry, the committed entry is the one that it
locked, with the arrivals added; each of them was credited blind. What the transaction reads is this
entry through its own writes, and when it commits, the entry's balance changes by what these move. -/
theorem held_row (h : Holding fresh tables before during p e) :
    let s := (State.opened fresh tables).run (before ++ during)
    let units := e.units + ((State.opened fresh tables).run before).arrivals p e.fund e.owner during
    s.world.locks.holds p e.id = true ∧
      (∃ at_, s.world.tables.entryById e.id = some (Tables.repriced units at_ e) ∧
        s.world.reread p e.id = [(s.world.journal p).overlay (Tables.repriced units at_ e)]) ∧
      (∀ x q now y done rest n, during = x ++ .ask q .commit now :: y → q ≠ p →
        ((State.opened fresh tables).run (before ++ x)).world.journal q =
          done ++ .credit e.fund e.owner n :: rest →
        Blind (State.opened fresh tables) (before ++ x) q done e.fund e.owner n) ∧
      ∀ now, (s.world.commitTx p now).2 = .ok () →
        ∃ at_, (s.committed p now).entryById e.id = some (Tables.repriced (units -
          (s.world.journal p).outgoing e.id + (s.world.journal p).incoming e.fund e.owner) at_ e) := by
  have hall : during = during ++ [] := (List.append_nil _).symm
  have hsettling := h.settling hall
  obtain ⟨hhead, at_, hmem⟩ := h.entry hall
  have hfound : ((State.opened fresh tables).run (before ++ during)).world.tables.entryById e.id =
      some (Tables.repriced (e.units +
        ((State.opened fresh tables).run before).arrivals p e.fund e.owner during) at_ e) :=
    hsettling.keyed.entryById_eq_some.mpr ⟨hmem, rfl⟩
  refine ⟨(RowLocks.holds_iff hsettling.level.tidy).mpr hhead, ⟨at_, hfound, ?_⟩, ?_, ?_⟩
  · simp [World.reread, hfound, Option.filter, h.active]
  · intro x q now y done rest n hx hne hjournal
    have hprefix := h.settling hx
    rcases hprefix.credits q done rest e.fund e.owner n hjournal with hblind | ⟨d, hd, hleads⟩
    · exact hblind
    · -- The owner's entry is the one that is held, and its line has one leader.
      obtain ⟨hhead, at', hmem⟩ := h.entry hx
      have hfound := hprefix.keyed.activeOf_eq_some.mpr ⟨hmem, rfl, rfl, h.active⟩
      rw [show d = _ from Option.some.inj (hd.symm.trans hfound)] at hleads
      exact absurd (Option.some.inj (hleads.symm.trans hhead)) hne
  · intro now hdone
    obtain ⟨at', hlast⟩ := hsettling.commits_balance h.new (Nat.le_refl _) hdone hmem h.active
    exact ⟨at', (hsettling.keyed.commit _ _ _).entryById_eq_some.mpr ⟨hlast, rfl⟩⟩

/-! ## A locked row that changes -/

def cleos : Entry := { adas with id := Uuid.ofNat 3, owner := "Cleo", units := 6 }

def doras : Entry := { adas with id := Uuid.ofNat 4, owner := "Dora", units := 4 }

def shared : Tables := { funds := [hull], entries := [cleos, doras] }

def moving (p : Party) (source : Entry) (target : String) (units : Int) : List Act :=
  [.ask p .openTx ⟨1⟩, .ask p (.lockEntries hull.id [source.owner, target]) ⟨1⟩,
    .ask p (.debit source.id units) ⟨1⟩, .ask p (.credit hull.id target units) ⟨1⟩,
    .ask p (.append ⟨hull.id, source.owner, target, units, none⟩) ⟨1⟩]

/-- Party 1 is about to give Ada 3 units when Ada has no entry. Party 2 gives her 2, which creates one,
and party 3 locks it. -/
def lockedLate : List Act :=
  moving 1 cleos "Ada" 3 ++ moving 2 doras "Ada" 2 ++
    [.ask 2 .commit ⟨2⟩, .ask 3 .openTx ⟨3⟩, .ask 3 (.lockEntries hull.id ["Ada", "Ben"]) ⟨3⟩]

def locked : Entry :=
  { id := Uuid.ofNat 103, fund := hull.id, owner := "Ada", units := 2, acquiredAt := ⟨2⟩,
    updatedAt := ⟨2⟩, state := .active }

def arriving : List Act :=
  [.ask 1 .commit ⟨4⟩, .ask 3 (.debit locked.id 2) ⟨5⟩, .ask 3 (.credit hull.id "Ben" 2) ⟨5⟩,
    .ask 3 (.append ⟨hull.id, "Ada", "Ben", 2, none⟩) ⟨5⟩]

theorem lockedLate_holding :
    Holding (fun n => Uuid.ofNat (n + 100)) shared lockedLate arriving 3 locked := by
  refine ⟨⟨by decide +kernel, by decide +kernel⟩, ⟨by decide +kernel, by decide +kernel⟩,
    by decide +kernel, by decide +kernel, rfl, by decide +kernel, ?_⟩
  intro a ha hends
  simp only [arriving, List.mem_cons, List.not_mem_nil, or_false] at ha
  rcases ha with rfl | rfl | rfl | rfl
  all_goals
    cases hends with
    | closes closes => cases closes

/-- Ada keeps 3 units when party 3 has moved out all that it saw. -/
theorem lockedLate_left :
    let s := (State.opened (fun n => Uuid.ofNat (n + 100)) shared).run (lockedLate ++ arriving)
    (∃ at_, s.world.tables.entryById locked.id = some (Tables.repriced (2 + 3) at_ locked)) ∧
      ∃ at_, (s.committed 3 ⟨6⟩).entryById locked.id =
        some (Tables.repriced (2 + 3 - 2 + 0) at_ locked) := by
  obtain ⟨-, ⟨at_, hnow, -⟩, -, hcommitted⟩ := held_row lockedLate_holding
  obtain ⟨at', hafter⟩ := hcommitted ⟨6⟩ (isOk_iff.mp (by decide +kernel))
  have hunits : locked.units + ((State.opened (fun n => Uuid.ofNat (n + 100)) shared).run
      lockedLate).arrivals 3 locked.fund locked.owner arriving = 2 + 3 := by decide +kernel
  have hjournal : ((State.opened (fun n => Uuid.ofNat (n + 100)) shared).run
      (lockedLate ++ arriving)).world.journal 3 = [.debit locked.id 2, .credit hull.id "Ben" 2,
        .transfer ⟨Uuid.ofNat 108, hull.id, "Ada", "Ben", 2, none, ⟨5⟩⟩] := by decide +kernel
  rw [hunits] at hnow hafter
  rw [hjournal] at hafter
  exact ⟨⟨at_, hnow⟩, at', hafter⟩

/-- A lock does not keep the committed balance of its row as it is. -/
theorem held_row_changes : ¬ ∀ fresh tables before during p e,
    Holding fresh tables before during p e →
    ∃ d, ((State.opened fresh tables).run (before ++ during)).world.tables.entryById e.id = some d ∧
      d.units = e.units := by
  intro h
  obtain ⟨d, hd, hunits⟩ := h _ _ _ _ _ _ lockedLate_holding
  have hfound : ((State.opened (fun n => Uuid.ofNat (n + 100)) shared).run
      (lockedLate ++ arriving)).world.tables.entryById locked.id =
        some { locked with units := 5, updatedAt := ⟨4⟩ } := by decide +kernel
  rw [hfound] at hd
  cases hd
  cases hunits

end UnitLedger.Transactions
