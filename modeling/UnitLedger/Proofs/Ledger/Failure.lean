import UnitLedger.Proofs.Concurrent.Released
import UnitLedger.Proofs.Concurrent.Sound
import UnitLedger.Proofs.Concurrent.Unfolding
import UnitLedger.Proofs.Concurrent.Unshared

/-!
  UnitLedger.Proofs.Ledger.Failure — a call that fails has done nothing.

  A call fails before its transaction, after one of its locks, with debit and credit in its journal, or
  in its commit, when these were already carried out; and a transfer that is refused for its key goes
  on with a second transaction before it is told so. Whichever way it goes, no turn of a call that ends
  in an error changes the committed rows, and whoever has an answer holds no row and waits for none
  (`failed_calls`). Other calls and resets may come in between at any place.
-/

namespace UnitLedger.Ledger

open Concurrent Memory

variable {s s' : System Stage} {e : Event}

/-- A move leaves the tables alone, or its call has an answer that is no error from then on. -/
theorem change_answer {c : Caller Stage} {p : Party} {now : Instant} {w : World} {σ : Stage}
    {answered : Option Store.Op} (move : Stage.Move s.world p now c.progress w σ answered)
    (change : Change s c now w σ) :
    w.tables = s.world.tables ∨ ∃ a, σ = .finished a ∧ ∀ err, ¬ a.Fails err := by
  cases change with
  | same tables => exact Or.inl tables
  | reset stage =>
    rw [stage] at move
    cases move with
    | reset =>
      refine Or.inr ⟨_, rfl, ?_⟩
      rintro err ⟨x, hx, -⟩
      cases hx
    | lockNone run | lockShort run | lockEnough run | lockError run | lockPause run => cases run
  | founded | settled =>
    refine Or.inr ⟨_, rfl, fun err hfails => ?_⟩
    cases hfails

/-- A step of a party that ends up with an error changes no committed row. -/
theorem failing_step (sound : Sound s) (hs : s.Step e s')
    (hids : DistinctIds s'.world.fresh s'.world.used) {after : List Event} {a : Answer}
    {err : LedgerError} (hans : (s'.run stages after).answer? stages e.party = some a)
    (hfails : a.Fails err) : s'.world.tables = s.world.tables := by
  cases hs with
  | ignored | arrives => rfl
  | @moves p now c w σ answered caller unfinished move =>
    rw [System.moved_tables]
    rw [System.moved_fresh, System.moved_used] at hids
    rcases change_answer move (sound.change caller move hids) with htables | ⟨b, rfl, hgood⟩
    · exact htables
    · -- It has its answer by now, and keeps it.
      have hmoved : (s.moved p c w (.finished b) answered).caller p =
          some (c.moved (.finished b) answered) := System.moved_caller_self
      have hlast := System.finished_run hmoved ⟨b, rfl⟩ after
      obtain ⟨d, hd, hstage⟩ := System.answer?_eq_some.mp hans
      rw [Event.party, hlast] at hd
      cases hd
      cases hstage
      exact absurd hfails (hgood err)

/-- After a step that changes rows its party has its answer, so no later event of it changes any. -/
theorem changes_once (sound : Sound s) (hids : DistinctIds s.world.fresh (s.step stages e).world.used)
    (hchanges : (s.step stages e).world.tables ≠ s.world.tables) (between : List Event) {e' : Event}
    (hparty : e'.party = e.party) :
    (((s.step stages e).run stages between).step stages e').world.tables =
      ((s.step stages e).run stages between).world.tables := by
  obtain ⟨c, hc, hfinished⟩ : ∃ c, (s.step stages e).caller e.party = some c ∧ c.Finished := by
    have hs := System.step_step s e
    generalize s.step stages e = s' at hs hids hchanges
    cases hs with
    | ignored | arrives => exact absurd rfl hchanges
    | @moves p now c w σ answered caller unfinished move =>
      rw [System.moved_tables] at hchanges
      rw [System.moved_used, ← move.frame.fresh] at hids
      obtain ⟨a, rfl, -⟩ := (change_answer move (sound.change caller move hids)).resolve_left hchanges
      exact ⟨_, System.moved_caller_self, a, rfl⟩
  have hlast := System.finished_run hc hfinished between
  have hs := System.step_step ((s.step stages e).run stages between) e'
  generalize System.step stages _ e' = s' at hs
  cases hs with
  | ignored | arrives => rfl
  | moves caller unfinished =>
    rw [← hparty, Event.party, caller] at hlast
    cases hlast
    exact absurd hfinished unfinished

/-- No row has an id that was taken for a call which is under way, or which ended in an error. -/
def Unrecorded (s : System Stage) : Prop :=
  ∀ p c, s.caller p = some c → (∀ a, c.progress = .finished a → ∃ err, a.Fails err) →
    ∀ id ∈ c.ids, id ∉ s.world.tables.ids

theorem Unrecorded.step (h : Unrecorded s) (sound : Sound s) (unshared : Unshared s)
    (hs : s.Step e s') (hids : DistinctIds s'.world.fresh s'.world.used) : Unrecorded s' := by
  cases hs with
  | ignored => exact h
  | arrives new =>
    intro q d hd hfails
    rcases System.arrive_caller hd with ⟨-, rfl⟩ | ⟨-, hold⟩
    · intro id hid hrow
      rw [Caller.ids_arriving] at hid
      -- Its ids are taken now, and those of all rows were before.
      have hdrawn : Drawn s.world id := unshared.rows id hrow
      have hids : DistinctIds s.world.fresh (s.world.used + 2) := hids
      rcases List.mem_pair.mp hid with rfl | rfl
      · exact hids.not_drawn (Nat.le_refl _) (by omega) hdrawn
      · exact hids.not_drawn (Nat.le_succ _) (by omega) hdrawn
    · exact h q d hold hfails
  | @moves p now c w σ answered caller unfinished move =>
    rw [System.moved_fresh, System.moved_used] at hids
    intro q d hd hfails id hid hrow
    rw [System.moved_tables] at hrow
    rcases System.moved_caller hd with ⟨rfl, rfl⟩ | ⟨hq, hd⟩
    · have hsame : w.tables = s.world.tables := by
        rcases change_answer move (sound.change caller move hids) with hsame | ⟨a, rfl, hgood⟩
        · exact hsame
        · obtain ⟨err, hfails⟩ := hfails a rfl
          exact absurd hfails (hgood err)
      rw [hsame] at hrow
      rcases (unshared.moved_ids caller move hids hid).1 with rfl | rfl | hnew
      · exact unshared.unused q c caller unfinished _ List.mem_cons_self hrow
      · exact unshared.unused q c caller unfinished _ (List.mem_cons_of_mem _ List.mem_cons_self) hrow
      · exact hnew (unshared.rows id hrow)
    · rcases sound.moved_row caller unfinished move hids hrow with hold | ⟨-, hmine | hnew⟩
      · exact h q d hd hfails id hid hold
      · exact unshared.apart q p d c hd caller hq id hid hmine
      · exact hnew.1 (unshared.drawn q d hd id hid)

theorem unrecorded_run {fresh : Nat → Uuid} (es : List Event)
    (hids : DistinctIds fresh ((System.opened fresh {}).run stages es).world.used) :
    Unrecorded ((System.opened fresh {}).run stages es) := by
  refine (System.run_induction (I := fun s => Sound s ∧ Unshared s ∧ Unrecorded s)
    ⟨sound_opened fresh, unshared_opened fresh, fun p c hc => by cases hc⟩ ?_ es hids).2.2
  intro s e s' ⟨sound, unshared, unrecorded⟩ hs hids
  exact ⟨sound.step hs hids, unshared.step sound hs hids, unrecorded.step sound unshared hs hids⟩

/-- In every run, with any calls and resets between them: an event of a call that ends in an error leaves
all committed rows as they were, and a call that has its answer, whichever it is, holds no row lock and
waits for none. -/
theorem failed_calls (fresh : Nat → Uuid) (es : List Event) :
    (DistinctIds fresh (ledger fresh es).world.used →
      ∀ before e after a err, es = before ++ e :: after →
        (ledger fresh es).answer? programs e.party = some a → a.Fails err →
        (ledger fresh (before ++ [e])).world.tables = (ledger fresh before).world.tables) ∧
    ∀ p a, (ledger fresh es).answer? programs p = some a →
      (∀ row, (ledger fresh es).world.locks.holds p row = false) ∧
        (ledger fresh es).world.locks.waits p = false := by
  simp only [ledger_eq_stages, System.answer?_map]
  refine ⟨?_, ?_⟩
  · rintro hids before e after a err rfl hans hfails
    rw [List.append_cons] at hids hans
    have hids' := System.distinct_part hids
    have sound := sound_run before (System.distinct_part hids')
    have hs := System.step_step ((System.opened fresh {}).run stages before) e
    have hfresh : (((System.opened fresh {}).run stages before).step stages e).world.fresh = fresh := by
      rw [System.step_fresh hs, System.run_fresh]
      rfl
    rw [System.run_append] at hids' ⊢
    rw [System.run_run, System.run_append] at hans
    exact failing_step sound hs (by rwa [hfresh]) hans hfails
  · intro p a hans
    obtain ⟨c, hc, hstage⟩ := System.answer?_eq_some.mp hans
    refine RowLocks.free_of_not_inLine (released_run fresh {} es p fun d hd => ?_)
    rw [hc] at hd
    cases hd
    exact ⟨a, hstage⟩

/-! ## A transfer that is refused in its commit -/

/-- Ada's fund is founded, and she gives Carol 4 of her 10 units. Then Ada gives Ben and Carol gives Dan
4 units with one key, and both are ready to commit before Ada does. -/
def oneKey : List Event :=
  let gift (source target : String) (key : Option Uuid) : Call :=
    .transfer ⟨Uuid.ofNat 0, source, target, 4, key⟩
  [.call 0 (.createFund "Hull" 10 "Ada") ⟨0⟩] ++ List.replicate 4 (.turn 0 ⟨1⟩) ++
  [.call 1 (gift "Ada" "Carol" none) ⟨2⟩] ++ List.replicate 6 (.turn 1 ⟨3⟩) ++
  [.call 2 (gift "Ada" "Ben" (some (Uuid.ofNat 77))) ⟨4⟩,
    .call 3 (gift "Carol" "Dan" (some (Uuid.ofNat 77))) ⟨4⟩] ++
  List.replicate 6 (.turn 2 ⟨5⟩) ++ List.replicate 6 (.turn 3 ⟨6⟩) ++ [.turn 2 ⟨7⟩]

/-- Carol's transfer is refused in its commit, after its debit and its credit, and changes nothing in this
turn. It is told so after a second transaction, and has let go of her row. -/
theorem oneKey_refused :
    let es := oneKey ++ .turn 3 ⟨8⟩ :: List.replicate 3 (.turn 3 ⟨9⟩)
    (ledger Uuid.ofNat es).answer? programs 3 =
        some (.transfer (.error .duplicateIdempotencyKey)) ∧
      (ledger Uuid.ofNat (oneKey ++ [.turn 3 ⟨8⟩])).world.tables =
        (ledger Uuid.ofNat oneKey).world.tables ∧
      ∀ row, (ledger Uuid.ofNat es).world.locks.holds 3 row = false := by
  intro es
  have hids : DistinctIds Uuid.ofNat (ledger Uuid.ofNat es).world.used := by decide +kernel
  have hans : (ledger Uuid.ofNat es).answer? programs 3 =
      some (.transfer (.error .duplicateIdempotencyKey)) := by decide +kernel
  obtain ⟨hkeeps, hfree⟩ := failed_calls Uuid.ofNat es
  exact ⟨hans, hkeeps hids oneKey (.turn 3 ⟨8⟩) _ _ _ rfl hans rfl, (hfree 3 _ hans).1⟩

end UnitLedger.Ledger
