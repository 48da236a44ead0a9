import UnitLedger.Proofs.Transactions.Frame

/-!
  UnitLedger.Proofs.Transactions.Origins — where the writes of a commit come from.

  A transaction's journal holds only what its own party asked for (`journaled_run`). Each write but a
  transfer is an operation with the same arguments; a transfer is an order to which an id and a time
  were added. So what a commit brings into the tables (`Brings`) can be followed back to an operation
  of the run.
-/

namespace UnitLedger.Memory

open Store (Op)

def Write.op? : Write → Option Op
  | .fund f => some (.createFund f)
  | .entry e => some (.createEntry e)
  | .debit id units => some (.debit id units)
  | .credit f owner units => some (.credit f owner units)
  | .transfer _ => none

end UnitLedger.Memory

namespace UnitLedger.Transactions

open Memory (Party Write Tables)
open Store (Op)

variable {s s' : State} {acts : List Act} {a : Act} {p : Party} {w : Write}

/-! ## Journals -/

structure Journaled (acts : List Act) (s : State) : Prop where
  journals : ∀ p w op, w ∈ s.world.journal p → w.op? = some op → ∃ now, Act.ask p op now ∈ acts
  waits : ∀ p fund owner units, s.waiting p = some ⟨.credit fund owner units, ()⟩ →
    ∃ now, Act.ask p (.credit fund owner units) now ∈ acts

theorem Journaled.write (h : Journaled acts s) (write : Writes s p s' a w) {op : Op} (hop : w.op? = some op) :
    ∃ now, Act.ask p op now ∈ acts ++ [a] := by
  cases write with
  | goesOn waited =>
    cases hop
    obtain ⟨now, hmem⟩ := h.waits _ _ _ _ waited
    exact ⟨now, List.mem_append_left _ hmem⟩
  | record => cases hop
  | fund | entry | debit | unlocked | locked =>
    cases hop
    exact ⟨_, List.mem_append_right _ (List.mem_singleton_self _)⟩

theorem Journaled.step (h : Journaled acts s) (hstep : Step s a s') : Journaled (acts ++ [a]) s' := by
  have hbefore : ∀ {p op}, (∃ now, Act.ask p op now ∈ acts) →
      ∃ now, Act.ask p op now ∈ acts ++ [a] := by
    rintro p op ⟨now, hmem⟩
    exact ⟨now, List.mem_append_left _ hmem⟩
  refine ⟨fun p w op hw hop => ?_, fun p fund owner units hwaits => ?_⟩
  · cases hstep.journalStep p with
    | keeps same => exact hbefore (h.journals p w op (same ▸ hw) hop)
    | writes x write own =>
      rw [own] at hw
      rcases List.mem_append.mp hw with hw | hw
      · exact hbefore (h.journals p w op hw hop)
      · obtain rfl := List.mem_singleton.mp hw
        exact h.write write hop
    | drops empty =>
      rw [empty] at hw
      cases hw
  · rcases hstep.creditWaits hwaits with hold | ⟨-, -, -, -, now, rfl⟩
    · exact hbefore (h.waits p fund owner units hold)
    · exact ⟨now, List.mem_append_right _ (List.mem_singleton_self _)⟩

/-- Whatever a party's journal holds, the party has asked for. -/
theorem journaled_run (fresh : Nat → Uuid) (tables : Tables) (acts : List Act) :
    Journaled acts ((State.opened fresh tables).run acts) := by
  refine State.run_history ⟨?_, ?_⟩ (fun acts a s' h hstep => h.step hstep) acts
  · intro p w op hw
    cases hw
  · intro p fund owner units hwaits
    cases hwaits

/-! ## Commits of a run -/

/-- After the acts `before` of the run the party commits, its commit goes through, and the write is one
of its journal. -/
structure Brings (s : State) (acts before : List Act) (p : Party) (now : Instant) (w : Write) :
    Prop where
  place : before ++ [.ask p .commit now] <+: acts
  goes : (s.run before).commits p now = true
  mem : w ∈ (s.run before).world.journal p

theorem Brings.mono {acts' before : List Act} {now : Instant} (h : Brings s acts before p now w)
    (hacts : acts <+: acts') : Brings s acts' before p now w :=
  ⟨h.place.trans hacts, h.goes, h.mem⟩

/-- What a commit brings in was asked for before. -/
theorem Brings.asked {fresh : Nat → Uuid} {tables : Tables} {before : List Act} {now : Instant}
    (h : Brings (State.opened fresh tables) acts before p now w) {op : Op} (hop : w.op? = some op) :
    ∃ then_, Act.ask p op then_ ∈ before :=
  (journaled_run fresh tables before).journals p w op h.mem hop

/-- What is true of the tables and would not be of empty ones has become true in a commit. -/
theorem State.becomes {P : Tables → Prop} (hempty : ¬ P {}) {fresh : Nat → Uuid} {acts : List Act}
    (h : P ((State.opened fresh {}).run acts).world.tables) :
    ∃ before p now, before ++ [.ask p .commit now] <+: acts ∧
      ((State.opened fresh {}).run before).allows p .commit = true ∧
      ¬ P ((State.opened fresh {}).run before).world.tables ∧
      P (((State.opened fresh {}).run before).committed p now) := by
  induction acts using List.reverseRecOn with
  | nil => exact absurd h hempty
  | append_singleton acts a ih =>
    by_cases hbefore : P ((State.opened fresh {}).run acts).world.tables
    · obtain ⟨before, p, now, hplace, hrest⟩ := ih hbefore
      exact ⟨before, p, now, hplace.trans (List.prefix_append _ _), hrest⟩
    · rw [run_concat] at h
      rcases tables_step ((State.opened fresh {}).run acts) a with
        htables | ⟨p, now, rfl, allowed, htables⟩ | ⟨-, htables⟩ <;> rw [htables] at h
      · exact absurd h hbefore
      · exact ⟨acts, p, now, List.prefix_refl _, allowed, hbefore, h⟩
      · exact absurd h hempty

/-- A commit that is allowed and not refused goes through. -/
theorem State.commits_of_ok {now : Instant} (allowed : s.allows p .commit = true)
    (done : (s.world.tables.commit (fun n => s.world.fresh (s.world.used + n)) now
      (s.world.journal p)).2 = .ok ()) : s.commits p now = true :=
  commits_iff.mpr ⟨allowed, commitTx_ok.mpr done⟩

theorem State.commit_of_commits {now : Instant} (h : s.commits p now = true) :
    s.world.tables.commit (fun n => s.world.fresh (s.world.used + n)) now (s.world.journal p) =
      (s.committed p now, .ok ()) :=
  Prod.ext rfl (commitTx_ok.mp (commits_iff.mp h).2)

theorem State.tables_of_commits {now : Instant} (h : s.commits p now = true) :
    (s.step (.ask p .commit now)).world.tables = s.committed p now := by
  rw [step, if_pos (commits_iff.mp h).1]
  rfl

/-- The state after the commit has what the commit leaves. -/
theorem Brings.tables {before : List Act} {now : Instant} (h : Brings s acts before p now w) :
    (s.run (before ++ [.ask p .commit now])).world.tables = (s.run before).committed p now := by
  rw [State.run_concat]
  exact State.tables_of_commits h.goes

end UnitLedger.Transactions
