import Mathlib.Data.List.Infix
import UnitLedger.Proofs.Transactions.NetEffect

/-!
  UnitLedger.Proofs.Transactions.EagerRefusal — operations that fail inside a transaction.

  Some writes are refused when they are made, by the committed rows and the journal. Such a refusal is
  never premature: the commit of the journal with this write behind it would be refused too, as long as
  the committed rows stay (`commit_refuses`).

  An operation that fails writes nothing. One that is refused at once leaves the whole state as it was,
  and one whose wait for a row lock is given up leaves locks and what others have done meanwhile. So the
  transaction is the one that it was before, and its commit does what it would have done if the operation
  had never been called (`refusals_agree`).

  The locks can have kept others from drawing ids. So the two commits are compared under the same new
  ids: one of them is made where it would take its ids from the other's place in the supply
  (`State.supplied`).
-/

namespace UnitLedger.Transactions

open Memory (Party World Journal Write Tables Violation Progress)
open Store (Op)

/-! ## Writes that are refused when they are made -/

/-- The operation asks for this write, and is refused at once if rows or journal are against it. An
append leaves the id and the time of its record to the store. -/
inductive Attempts : Op → Write → Prop where
  | fund (f : Fund) : Attempts (.createFund f) (.fund f)
  | entry (e : Entry) : Attempts (.createEntry e) (.entry e)
  | transfer (order : TransferOrder) (id : Uuid) (at_ : Instant) :
      Attempts (.append order) (.transfer (order.record id at_))

section Refusal

variable {w : World} {p : Party} {now : Instant} {err : StoreError} {t : Tables}

/-- The id and the time of a record are not looked at. -/
theorem addTransfer_record {j : Journal} {order : TransferOrder} {id : Uuid} {at_ : Instant}
    {v : Violation} (h : j.addTransfer t (order.record id at_) = .error v) (id' : Uuid)
    (at' : Instant) : j.addTransfer t (order.record id' at') = .error v := by
  unfold Journal.addTransfer TransferOrder.record at h ⊢
  split_ifs at h ⊢ <;> cases h <;> rfl

theorem journaled_error {α : Type} {a : α} {r : Except Violation Journal}
    (h : (w.journaled p a r).2 = .error err) : ∃ v, r = .error v := by
  cases r with
  | ok j => cases h
  | error v => exact ⟨v, rfl⟩

/-- The write is refused on whatever rows the journal comes to. -/
theorem Attempts.refused {op : Op} {x : Write} (h : Attempts op x)
    (hrefused : (w.start p now op).2 = .answered (.error err))
    (effect : Memory.NetEffect (w.journal p) w.tables t) (freshId : Uuid) (then_ : Instant) :
    ∃ v, t.apply freshId then_ x = .error v := by
  cases h with
  | fund f =>
    obtain ⟨v, hadd⟩ := journaled_error (Progress.answered.inj hrefused)
    exact effect.refuses_fund freshId then_ hadd
  | entry e =>
    obtain ⟨v, hadd⟩ := journaled_error (Progress.answered.inj hrefused)
    exact effect.refuses_entry freshId then_ hadd
  | transfer order id at_ =>
    simp only [World.start] at hrefused
    split at hrefused
    · cases hrefused
    · rename_i v hadd
      exact ⟨v, effect.refuses_transfer freshId then_ (addTransfer_record hadd id at_)⟩

/-- A write that is refused when it is made would be refused at the commit as well: the journal with
this write behind it is not committed. -/
theorem commit_refuses {op : Op} {x : Write} (keyed : w.tables.Keyed)
    (new : (w.journal p).NewIds (fun n => w.fresh (w.used + n)) w.tables) (h : Attempts op x)
    (hrefused : (w.start p now op).2 = .answered (.error err)) (then_ : Instant) :
    ∃ err', ((w.setJournal p (w.journal p ++ [x])).commitTx p then_).2 = .error err' := by
  have hcommit : ∃ v, (w.tables.commit (fun n => w.fresh (w.used + n)) then_
      (w.journal p ++ [x])).2 = .error v := by
    refine Tables.applyAll_concat_error fun t' hrest => ?_
    exact h.refused hrefused (Tables.commit_netEffect keyed new hrest) _ then_
  obtain ⟨v, hv⟩ := hcommit
  refine ⟨v.storeError, ?_⟩
  rw [World.commitTx_answer, World.journal_setJournal_self]
  exact congrArg (Except.mapError Violation.storeError) hv

end Refusal

/-! ## Operations that fail -/

namespace State

/-- The error that the party is answered in this act. A wait that is given up is answered a lock
timeout. -/
def refused (s : State) (p : Party) : Act → Option StoreError
  | .ask q op now =>
    if q = p ∧ s.allows p op then
      match (s.world.start p now op).2 with
      | .answered (.error err) => some err
      | _ => none
    else none
  | .goOn q =>
    match s.waiting p with
    | some ⟨op, at_⟩ =>
      if q = p ∧ s.world.locks.waits p = false then
        match (s.world.resume p op at_).2 with
        | .answered (.error err) => some err
        | _ => none
      else none
    | none => none
  | .giveUp q => if q = p ∧ s.world.locks.waits p then some .lockTimeout else none
  | .drop _ | .dropRows | .dropLocks => none

/-- The party's operation is asked for in the first of these acts and answered this error in the last;
in between it waits, and others may act. -/
structure Fails (s : State) (p : Party) (op : Op) (span : List Act) (err : StoreError) : Prop where
  allowed : s.allows p op = true
  asked : ∃ now rest, span = .ask p op now :: rest
  pending : ∀ part, part <+: span → part ≠ [] → part ≠ span → ((s.run part).waiting p).isSome
  last : ∃ part a, span = part ++ [a] ∧ (s.run part).refused p a = some err

variable {s s' : State} {a : Act} {p : Party} {op : Op} {span : List Act} {err : StoreError}

/-- Locking rows is answered no error. -/
theorem lockProgress_not_refused {w : World} {fund : Uuid} {owners owners' : List String}
    {locked : List Entry} :
    (World.lockProgress (World.lockRows p fund w owners' locked) :
      World × Progress (.lockEntries fund owners)).2 ≠ .answered (.error err) := by
  intro h
  rcases hrun : World.lockRows p fund w owners' locked with ⟨w', r | at_⟩ <;> rw [hrun] at h
  · obtain ⟨locked', rfl⟩ := World.lockRows_ok (congrArg Prod.snd hrun)
    cases h
  · cases h

/-- An operation that is refused at once leaves the store as it was. -/
theorem start_refused {w : World} {now : Instant} (hop : op ≠ .commit)
    (h : (w.start p now op).2 = .answered (.error err)) : (w.start p now op).1 = w := by
  cases op with
  | commit => exact absurd rfl hop
  | createFund f =>
    obtain ⟨v, hadd⟩ := journaled_error (Progress.answered.inj h)
    simp only [World.start, hadd]
    rfl
  | createEntry e =>
    obtain ⟨v, hadd⟩ := journaled_error (Progress.answered.inj h)
    simp only [World.start, hadd]
    rfl
  | lockEntries fund owners => exact absurd h lockProgress_not_refused
  | credit fund owner units =>
    simp only [World.start] at h
    split at h
    · cases h
    · split at h <;> cases h
  | append order =>
    simp only [World.start] at h ⊢
    split at h
    · cases h
    · rfl
  | _ => cases h

theorem resume_not_refused {w : World} (at_ : Memory.Pause op) :
    (w.resume p op at_).2 ≠ .answered (.error err) := by
  cases op with
  | lockEntries fund owners => exact lockProgress_not_refused
  | credit => exact fun h => by cases h
  | _ => exact at_.elim

theorem idle_of_allows (h : s.allows p op = true) : s.waiting p = none := by
  simp only [allows, Bool.and_eq_true, Option.isNone_iff_eq_none] at h
  exact h.1

theorem put_self (idle : s.waiting p = none) : s.put p s.world = s := by
  rw [put, ← idle, Function.update_eq_self]

/-- An operation that is refused at once leaves the whole state as it was. -/
theorem step_refused {now : Instant} (allowed : s.allows p op = true) (hop : op ≠ .commit)
    (h : (s.world.start p now op).2 = .answered (.error err)) : s.step (.ask p op now) = s := by
  have hworld := start_refused hop h
  rw [step, if_pos allowed]
  rcases hstart : s.world.start p now op with ⟨w, progress⟩
  rw [hstart] at h hworld
  dsimp only at h hworld
  subst h hworld
  exact put_self (idle_of_allows allowed)

/-- The act in which an operation fails leaves the journals as they were, and its party waits no
longer. -/
theorem refused_step (hop : ∀ now, a ≠ .ask p .commit now) (h : s.refused p a = some err) :
    (s.step a).world.journals = s.world.journals ∧ (s.step a).waiting p = none := by
  unfold refused at h
  split at h
  · rename_i q op now
    split at h
    · rename_i hallowed
      obtain ⟨rfl, hallowed⟩ := hallowed
      split at h
      · rename_i err' hanswer
        rw [step_refused hallowed (fun hc => hop now (by rw [hc])) hanswer]
        exact ⟨rfl, idle_of_allows hallowed⟩
      · cases h
    · cases h
  · split at h
    · rename_i op at_ hwaits
      split at h
      · split at h
        · rename_i err' hanswer
          exact absurd hanswer (resume_not_refused at_)
        · cases h
      · cases h
    · cases h
  · split at h
    · rename_i hwaits
      obtain ⟨rfl, hwaits⟩ := hwaits
      rw [step, if_pos hwaits]
      exact ⟨rfl, waiting_put_self _⟩
    · cases h
  all_goals cases h

/-! ## What others do -/

/-- An act touches the transaction of a party only if it is the party's own, and the party does not wait
after it. -/
theorem journal_touched (hstep : Step s a s') (p : Party) :
    s'.world.journals.lookup p = s.world.journals.lookup p ∨
      a.party? = some p ∧ s'.waiting p = none := by
  have hput : ∀ {q : Party} {w : World}, a.party? = some q →
      (p ≠ q → w.journals.lookup p = s.world.journals.lookup p) →
      (s.put q w).world.journals.lookup p = s.world.journals.lookup p ∨
        a.party? = some p ∧ (s.put q w).waiting p = none := by
    intro q w mine hother
    by_cases hp : p = q
    · subst hp
      exact Or.inr ⟨mine, waiting_put_self w⟩
    · exact Or.inl (hother hp)
  cases hstep with
  | nothing | reads | creditPauses | givesUp | dropsRows | dropsLocks => exact Or.inl rfl
  | locks run | pauses run => exact Or.inl (congrArg (List.lookup p) run.journals)
  | opens | adds | records | credits | creditGoes =>
    exact hput rfl fun hp => World.lookup_setJournal_ne _ hp
  | commits => exact hput rfl fun hp => World.lookup_closeTx_ne hp
  | closes ends => exact hput (by cases ends <;> rfl) fun hp => World.lookup_closeTx_ne hp

theorem waiting_others (hstep : Step s a s') (h : a.party? ≠ some p) :
    s'.waiting p = s.waiting p := by
  have hne : ∀ {q : Party}, a.party? = some q → p ≠ q := by
    rintro q mine rfl
    exact h mine
  cases hstep with
  | nothing | dropsRows | dropsLocks => rfl
  | locks run => exact waiting_put_ne _ (hne run.party)
  | pauses run => exact waiting_hold_ne _ _ (hne run.party)
  | creditPauses => exact waiting_hold_ne _ _ (hne rfl)
  | closes ends => exact waiting_put_ne _ (hne (by cases ends <;> rfl))
  | _ => exact waiting_put_ne _ (hne rfl)

/-- What others do leaves the party's transaction as it is. -/
theorem run_others (acts : List Act) (h : ∀ a ∈ acts, a.party? ≠ some p) :
    (s.run acts).world.journals.lookup p = s.world.journals.lookup p ∧
      (s.run acts).waiting p = s.waiting p := by
  induction acts generalizing s with
  | nil => exact ⟨rfl, rfl⟩
  | cons a acts ih =>
    obtain ⟨hjournal, hwaiting⟩ := ih (s := s.step a) fun b hb => h b (List.mem_cons_of_mem _ hb)
    have ha := h a List.mem_cons_self
    have hstep := step_step s a
    rw [run_cons, hjournal, hwaiting]
    exact ⟨(journal_touched hstep p).resolve_right fun hown => ha hown.1, waiting_others hstep ha⟩

/-- While the party waits, its journal stays as it is. -/
theorem run_waiting (acts : List Act)
    (h : ∀ part, part <+: acts → part ≠ [] → (s.run part).waiting p ≠ none) :
    (s.run acts).world.journals.lookup p = s.world.journals.lookup p := by
  induction acts using List.reverseRecOn with
  | nil => rfl
  | append_singleton acts a ih =>
    have hwaits := h (acts ++ [a]) (List.prefix_refl _) (by simp)
    rw [← ih fun part hpart => h part (hpart.trans (List.prefix_append _ _)), run_concat]
    rw [run_concat] at hwaits
    exact (journal_touched (step_step _ a) p).resolve_right fun hown => hwaits hown.2

/-- An operation that fails leaves the transaction of its party as it was. -/
theorem Fails.keeps (h : s.Fails p op span err) (hop : op ≠ .commit) :
    (s.run span).world.journals.lookup p = s.world.journals.lookup p ∧ (s.run span).waiting p = none := by
  obtain ⟨part, a, rfl, hrefused⟩ := h.last
  have hpart : ∀ part', part' <+: part → part' ≠ [] → (s.run part').waiting p ≠ none := by
    intro part' hinit hne
    refine Option.isSome_iff_ne_none.mp
      (h.pending part' (hinit.trans (List.prefix_append _ _)) hne fun hall => ?_)
    have hlength := hinit.length_le
    rw [hall, List.length_append, List.length_singleton] at hlength
    omega
  have hcommit : ∀ now, a ≠ .ask p .commit now := by
    rintro now rfl
    by_cases hfirst : part = []
    · -- The act is the one that asks for the operation.
      subst hfirst
      obtain ⟨then_, rest, hasked⟩ := h.asked
      cases hasked
      exact hop rfl
    · -- The party waits, so that it cannot ask for anything.
      have hwaits := hpart part (List.prefix_refl _) hfirst
      simp only [refused] at hrefused
      split at hrefused
      · rename_i hallowed
        exact hwaits (idle_of_allows hallowed.2)
      · cases hrefused
  obtain ⟨hjournals, hidle⟩ := refused_step hcommit hrefused
  rw [run_concat, hjournals, run_waiting part hpart]
  exact ⟨rfl, hidle⟩

/-- A failure that takes one act is a refusal at once. -/
theorem Fails.at_once (h : s.Fails p op span err) (hop : op ≠ .commit) (hspan : span.length = 1) :
    s.run span = s := by
  obtain ⟨now, rest, rfl⟩ := h.asked
  obtain rfl : rest = [] := by simpa using hspan
  obtain ⟨part, a, hsplit, hrefused⟩ := h.last
  obtain ⟨rfl, rfl⟩ : part = [] ∧ a = .ask p op now := by
    cases part with
    | nil => simpa [eq_comm] using hsplit
    | cons b part => simp at hsplit
  simp only [refused, run, List.foldl_nil, h.allowed, and_self, if_true] at hrefused
  split at hrefused
  · rename_i err' hanswer
    exact step_refused h.allowed hop hanswer
  · cases hrefused

/-- The same state, but the next ids are those from this place of the supply on. -/
def supplied (s : State) (used : Nat) : State := { s with world := { s.world with used } }

/-- A party's commit is up to the rows, the ids and its own transaction. -/
theorem commit_alike (htables : s.world.tables = s'.world.tables)
    (hfresh : s.world.fresh = s'.world.fresh) (hused : s.world.used = s'.world.used)
    (hjournal : s.world.journals.lookup p = s'.world.journals.lookup p)
    (hwaiting : s.waiting p = s'.waiting p) (now : Instant) :
    s.refused p (.ask p .commit now) = s'.refused p (.ask p .commit now) ∧
      (s.step (.ask p .commit now)).world.tables = (s'.step (.ask p .commit now)).world.tables := by
  have hallows : s.allows p .commit = s'.allows p .commit := by
    simp only [allows, isOpen, hjournal, hwaiting]
  obtain ⟨hanswer, hafter⟩ := World.commitTx_congr htables hfresh hused
    (by rw [World.journal, hjournal, World.journal]) now
  have hstart : ∀ w : World, w.start p now .commit =
      ((w.commitTx p now).1, .answered (w.commitTx p now).2) := fun w => rfl
  simp only [refused, step, hallows, hstart, hanswer, true_and]
  split
  · exact hafter
  · exact htables

end State

def others (p : Party) (acts : List Act) : List Act := acts.filter fun a => a.party? ≠ some p

theorem not_mine_of_others {p : Party} {acts : List Act} : ∀ a ∈ others p acts, a.party? ≠ some p :=
  fun a ha => by simpa using (List.mem_filter.mp ha).2

/-- Writes that are refused when they are made would be refused at the commit: from any rows that
transactions can lead to, with any journal that creates entries under new ids.

Any operation but the commit that fails, at once or by a wait that is given up, leaves the transaction of
its party as it was; one that is refused at once leaves the whole state so. Whatever others do until the
party commits, this commit is answered the same and leaves the same rows as in the run in which the party
had not called the operation, if it finds the same rows and is given the same new ids. -/
theorem refusals_agree :
    (∀ (w : World) (p : Party) (op : Op) (x : Write) (now then_ : Instant) (err : StoreError),
      Reached w.tables → (w.journal p).NewIds (fun n => w.fresh (w.used + n)) w.tables →
      Attempts op x → (w.start p now op).2 = .answered (.error err) →
      ∃ err', ((w.setJournal p (w.journal p ++ [x])).commitTx p then_).2 = .error err') ∧
    ∀ (s : State) (p : Party) (op : Op) (span : List Act) (err : StoreError),
      s.Fails p op span err → op ≠ .commit →
      let failed := s.run span
      failed.isOpen p = s.isOpen p ∧ failed.world.journal p = s.world.journal p ∧
        failed.waiting p = none ∧ (span.length = 1 → failed = s) ∧
        ∀ (later : List Act) (then_ : Instant), (∀ a ∈ later, a.party? ≠ some p) →
          let late := failed.run later
          let never := (s.run (others p (span ++ later))).supplied late.world.used
          never.world.tables = late.world.tables →
          late.refused p (.ask p .commit then_) = never.refused p (.ask p .commit then_) ∧
            (late.step (.ask p .commit then_)).world.tables =
              (never.step (.ask p .commit then_)).world.tables := by
  refine ⟨fun w p op x now then_ err reached new attempt refused =>
    commit_refuses reached.consistent.keyed new attempt refused then_, ?_⟩
  intro s p op span err fails hop failed
  obtain ⟨hjournals, hidle⟩ := fails.keeps hop
  refine ⟨by rw [State.isOpen, hjournals, State.isOpen], by rw [World.journal, hjournals, World.journal],
    hidle, fails.at_once hop, ?_⟩
  intro later then_ hothers late never htables
  have hlate := State.run_others (s := failed) later hothers
  have hnever := State.run_others (s := s) (others p (span ++ later)) not_mine_of_others
  -- In both runs the party's transaction is the one that it had before the operation.
  have hfresh : late.world.fresh = never.world.fresh := by
    show (failed.run later).world.fresh = (s.run (others p (span ++ later))).world.fresh
    rw [State.fresh_run, State.fresh_run, State.fresh_run]
  have hjournal : late.world.journals.lookup p = never.world.journals.lookup p :=
    hlate.1.trans (hjournals.trans hnever.1.symm)
  have hwaiting : late.waiting p = never.waiting p := by
    have hidle' : s.waiting p = none := State.idle_of_allows fails.allowed
    exact hlate.2.trans ((hidle.trans hidle'.symm).trans hnever.2.symm)
  exact State.commit_alike htables.symm hfresh rfl hjournal hwaiting then_

/-! ## A wait that is given up -/

/-- Ada hands half of her fund to Ben. Then one transaction locks his entry; another credits Zoe, who has
no entry. -/
def contended : List Act :=
  founding 0 hull adas ++
    [.ask 1 .openTx ⟨1⟩, .ask 1 (.debit adas.id 5) ⟨1⟩, .ask 1 (.credit hull.id "Ben" 5) ⟨1⟩,
      .ask 1 .commit ⟨1⟩, .ask 1 .openTx ⟨1⟩, .ask 1 (.lockEntries hull.id ["Ben"]) ⟨1⟩,
      .ask 2 .openTx ⟨1⟩, .ask 2 (.credit hull.id "Zoe" 5) ⟨1⟩]

def contendedState : State := (State.opened (fun n => Uuid.ofNat (n + 100)) {}).run contended

def benToAda : TransferOrder :=
  { fund := hull.id, source := "Ben", target := "Ada", units := 1, key := none }

/-- The second transaction locks Ada's entry, waits for Ben's, and gives up. Meanwhile a third one asks
to credit Ada and to append a record, and the first one debits Ben. -/
def givenUp : List Act :=
  [.ask 2 (.lockEntries hull.id ["Ada", "Ben"]) ⟨2⟩, .ask 3 .openTx ⟨2⟩,
    .ask 3 (.credit hull.id "Ada" 1) ⟨2⟩, .ask 3 (.append benToAda) ⟨2⟩,
    .ask 1 (.debit (Uuid.ofNat 103) 5) ⟨2⟩, .giveUp 2]

theorem givenUp_fails :
    contendedState.Fails 2 (.lockEntries hull.id ["Ada", "Ben"]) givenUp .lockTimeout := by
  have hpending : ∀ part ∈ givenUp.inits, part ≠ [] → part ≠ givenUp →
      ((contendedState.run part).waiting 2).isSome := by
    decide +kernel
  exact ⟨by decide +kernel, ⟨_, _, rfl⟩, fun part hpart => hpending part ((List.mem_inits _ _).mpr hpart),
    givenUp.dropLast, .giveUp 2, rfl, by decide +kernel⟩

def benToEve : TransferOrder :=
  { fund := hull.id, source := "Ben", target := "Eve", units := 3, key := none }

/-- Ben's transfer to Eve is refused at once, and by the commit, too. The wait for Ben's entry is given
up, and the commit brings Zoe's entry all the same. Without the wait the third transaction would not have
waited for Ada's entry, and would have drawn an id for its record. -/
theorem givenUp_agrees :
    let s := contendedState
    let late := s.run (givenUp ++ [.ask 1 .commit ⟨3⟩])
    let never := s.run (others 2 (givenUp ++ [.ask 1 .commit ⟨3⟩]))
    (∃ err', ((s.world.setJournal 2 (s.world.journal 2 ++
      [.transfer (benToEve.record (Uuid.ofNat 9) ⟨2⟩)])).commitTx 2 ⟨4⟩).2 = .error err') ∧
    s.Fails 2 (.lockEntries hull.id ["Ada", "Ben"]) givenUp .lockTimeout ∧
    (s.run givenUp).world.journal 2 = [.credit hull.id "Zoe" 5] ∧
    never.world.used = late.world.used + 1 ∧
    (late.step (.ask 2 .commit ⟨4⟩)).world.tables =
      ((never.supplied late.world.used).step (.ask 2 .commit ⟨4⟩)).world.tables ∧
    (late.step (.ask 2 .commit ⟨4⟩)).world.tables.entries.map (fun e => (e.owner, e.units)) =
      [("Ada", 5), ("Ben", 0), ("Zoe", 5)] := by
  intro s late never
  obtain ⟨heager, hfails⟩ := refusals_agree
  have hadd : (s.world.journal 2).addTransfer s.world.tables (benToEve.record s.world.draw.2 ⟨2⟩) =
      .error (.ownerMissing hull.id "Eve") := by
    decide +kernel
  have hanswer : (s.world.start 2 ⟨2⟩ (.append benToEve)).2 =
      .answered (.error (Violation.ownerMissing hull.id "Eve").storeError) := by
    simp only [World.start, hadd]
  have hrefused := heager s.world 2 (.append benToEve) _ ⟨2⟩ ⟨4⟩ _ ⟨_, _, rfl⟩
    ⟨by decide +kernel, by decide +kernel⟩ (.transfer benToEve (Uuid.ofNat 9) ⟨2⟩) hanswer
  obtain ⟨-, hjournal, -, -, hcommit⟩ := hfails s 2 _ givenUp .lockTimeout givenUp_fails (by decide)
  have hlate : late = (s.run givenUp).run [.ask 1 .commit ⟨3⟩] := State.run_append _ _ _
  refine ⟨hrefused, givenUp_fails, hjournal.trans (by decide +kernel), by decide +kernel, ?_,
    by decide +kernel⟩
  have hnever : never = s.run (others 2 (givenUp ++ [.ask 1 .commit ⟨3⟩])) := rfl
  rw [hlate, hnever]
  exact (hcommit [.ask 1 .commit ⟨3⟩] ⟨4⟩ (by decide) (by decide +kernel)).2

end UnitLedger.Transactions
