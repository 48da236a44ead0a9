import UnitLedger.Proofs.Memory.Records
import UnitLedger.Proofs.Transactions.Exclusion
import UnitLedger.Proofs.Transactions.Origins

/-!
  UnitLedger.Proofs.Transactions.History — the list of transfers only grows.

  Whatever transactions do and however they interleave, a record that is committed stays where it is,
  as it is, until a reset. The list grows in commits that go through and in nothing else, and such a
  commit adds exactly the records that the transaction's own appends have returned, in the order of the
  calls (`history_grows`). A listing of one fund's transfers grows in the same way.

  A journal is not the place to read off what was returned: `returned` looks at the answer of the
  operation, and `records_since` says that the journal holds just these answers.
-/

namespace UnitLedger.Transactions

open Memory (Party World Journal Write Tables)
open Store (Op)

namespace State

/-- The record that the party is answered in this act, if the act is an append of its transaction. -/
def returned (s : State) (p : Party) : Act → Option Transfer
  | .ask q (.append order) now =>
    if q = p ∧ s.allows p (.append order) then
      match (s.world.start p now (.append order)).2 with
      | .answered (.ok record) => some record
      | _ => none
    else none
  | _ => none

def returns (p : Party) : State → List Act → List Transfer
  | _, [] => []
  | s, a :: acts => (s.returned p a).toList ++ returns p (s.step a) acts

def Lists (s : State) (fund : Uuid) (records : List Transfer) : Prop :=
  ∀ p now window, (s.world.start p now (.listTransfers fund window)).2 =
    .answered (.ok (.ofList records window))

/-- The transaction that the party has open after the acts: it was opened after `before`, and the acts
since then are `during`. -/
structure Since (s : State) (p : Party) (acts before : List Act) (at_ : Instant) (during : List Act) :
    Prop where
  split : acts = before ++ .ask p .openTx at_ :: during
  closed : (s.run before).isOpen p = false
  stays : ∀ acts', acts' <+: during → (s.run (before ++ .ask p .openTx at_ :: acts')).isOpen p = true

variable {s : State} {a : Act} {p : Party} {now : Instant} {acts before during : List Act}

theorem returns_concat (p : Party) (s : State) (acts : List Act) (a : Act) :
    s.returns p (acts ++ [a]) = s.returns p acts ++ ((s.run acts).returned p a).toList := by
  induction acts generalizing s with
  | nil => simp [returns, run]
  | cons b acts ih => simp only [List.cons_append, returns, ih, run_cons, List.append_assoc]

theorem lists_of_eq {fund : Uuid} {records : List Transfer}
    (h : s.world.tables.transferListing fund = records) : s.Lists fund records := by
  intro p now window
  rw [← h]
  rfl

/-! ## What one act does to a transaction -/

inductive TxStep (s : State) (p : Party) (a : Act) (s' : State) : Prop where
  | keeps (same : s'.world.journals.lookup p = s.world.journals.lookup p)
  | opens (now : Instant) (ask : a = .ask p .openTx now) (closed : s.isOpen p = false)
      (own : s'.world.journals.lookup p = some [])
  | grows (x : Write) (isOpen : s.isOpen p = true)
      (own : s'.world.journals.lookup p = some (s.world.journal p ++ [x]))
  | ends (gone : s'.world.journals.lookup p = none)

theorem TxStep.growing {s' : State} {w : World} {q : Party} {x : Write} (isOpen : s.isOpen q = true)
    (hjournals : w.journals = s.world.journals)
    (done : s'.world.journals = (w.setJournal q (s.world.journal q ++ [x])).journals) :
    TxStep s p a s' := by
  by_cases hp : p = q
  · subst hp
    exact .grows x isOpen (by rw [done, World.lookup_setJournal_self])
  · exact .keeps (by rw [done, World.lookup_setJournal_ne _ hp, hjournals])

theorem TxStep.ending {s' : State} {w : World} {q : Party} (hjournals : w.journals = s.world.journals)
    (done : s'.world.journals = (w.closeTx q).journals) : TxStep s p a s' := by
  by_cases hp : p = q
  · subst hp
    exact .ends (by rw [done, World.lookup_closeTx_self])
  · exact .keeps (by rw [done, World.lookup_closeTx_ne hp, hjournals])

theorem txStep (h : Orderly s) (p : Party) (a : Act) : TxStep s p a (s.step a) := by
  have hstep := step_step s a
  generalize s.step a = s' at hstep ⊢
  cases hstep with
  | nothing | reads | creditPauses | givesUp | dropsRows | dropsLocks => exact .keeps rfl
  | @opens q now idle closed =>
    by_cases hp : p = q
    · subst hp
      exact .opens now rfl closed (World.lookup_setJournal_self _ _ _)
    · exact .keeps (World.lookup_setJournal_ne _ hp)
  | adds idle isOpen => exact .growing isOpen rfl rfl
  | records idle isOpen => exact .growing (w := s.world.draw.1) isOpen rfl rfl
  | @credits q fund owner units now e locks idle isOpen =>
    exact .growing (w := { s.world with locks }) isOpen rfl rfl
  | @creditGoes q fund owner units waited =>
    exact .growing (h.waiting q (by simp [waited])) rfl rfl
  | locks run | pauses run => exact .keeps (congrArg (List.lookup p) run.journals)
  | @commits q now => exact .ending (w := { s.world with
      tables := s.committed q now
      used := s.world.used + (s.world.journal q).length }) rfl rfl
  | closes => exact .ending (w := s.world) rfl rfl

/-- The journal of a transaction that is open before and after an act has lost nothing. -/
theorem TxStep.lossless {s' : State} (h : TxStep s p a s') (hbefore : s.isOpen p = true)
    (hafter : s'.isOpen p = true) : s.world.journal p <+: s'.world.journal p := by
  cases h with
  | keeps same =>
    have hjournal : s'.world.journal p = s.world.journal p := by
      rw [World.journal, World.journal, same]
    exact ⟨[], by rw [List.append_nil, hjournal]⟩
  | opens now ask closed =>
    rw [closed] at hbefore
    cases hbefore
  | grows x isOpen own =>
    rw [World.journal.eq_1 s'.world, own]
    exact List.prefix_append _ _
  | ends gone =>
    rw [isOpen, gone] at hafter
    cases hafter

/-- A transaction that comes to be open was opened by its party, and its journal is empty. -/
theorem TxStep.opened {s' : State} (h : TxStep s p a s') (hbefore : s.isOpen p = false)
    (hafter : s'.isOpen p = true) : ∃ now, a = .ask p .openTx now ∧ s'.world.journal p = [] := by
  cases h with
  | keeps same =>
    rw [isOpen, same] at hafter
    exact absurd (hbefore.symm.trans hafter) (by decide)
  | opens now ask closed own => exact ⟨now, ask, by rw [World.journal, own]; rfl⟩
  | grows x isOpen own => exact absurd (hbefore.symm.trans isOpen) (by decide)
  | ends gone =>
    rw [isOpen, gone] at hafter
    cases hafter

/-! ## What one act adds to a journal -/

/-- Only an append of the party returns it a record. -/
theorem returned_eq_none (h : ∀ order now, a ≠ .ask p (.append order) now) :
    s.returned p a = none := by
  unfold returned
  split
  · rename_i q order now
    rw [if_neg]
    rintro ⟨rfl, -⟩
    exact h order now rfl
  · rfl

/-- An append adds to the journal the record that it returns. -/
theorem records_append (order : TransferOrder) :
    ((s.step (.ask p (.append order) now)).world.journal p).records =
      (s.world.journal p).records ++ (s.returned p (.ask p (.append order) now)).toList := by
  by_cases allowed : s.allows p (.append order) = true
  · simp only [step, returned, allowed, and_self, if_true, World.start]
    cases hadd : (s.world.journal p).addTransfer s.world.tables
        (order.record s.world.draw.2 now) with
    | error v => exact (List.append_nil _).symm
    | ok j =>
      obtain rfl := Concurrent.Stage.addTransfer_ok hadd
      exact (congrArg Journal.records (World.journal_setJournal_self _)).trans
        (Journal.records_concat _ _)
  · simp [step, returned, allowed]

/-- An act that is no append leaves the records in the journal of a transaction that is open before
and after it. -/
theorem records_else (h : Orderly s) (ha : ∀ order now, a ≠ .ask p (.append order) now)
    (hbefore : s.isOpen p = true) (hafter : (s.step a).isOpen p = true) :
    ((s.step a).world.journal p).records = (s.world.journal p).records := by
  have hstep := step_step s a
  cases hstep.journalStep p with
  | keeps same => rw [same]
  | writes w write own =>
    rw [own, Journal.records_concat]
    cases write with
    | record => exact absurd rfl (ha _ _)
    | _ => exact List.append_nil _
  | drops empty =>
    have hprefix := (txStep h p a).lossless hbefore hafter
    rw [empty] at hprefix ⊢
    rw [List.prefix_nil.mp hprefix]

/-- While a transaction is open, an act adds to the records of its journal what it returns. -/
theorem records_step (h : Orderly s) (hbefore : s.isOpen p = true) (hafter : (s.step a).isOpen p = true) :
    ((s.step a).world.journal p).records =
      (s.world.journal p).records ++ (s.returned p a).toList := by
  by_cases ha : ∃ order now, a = .ask p (.append order) now
  · obtain ⟨order, now, rfl⟩ := ha
    exact records_append order
  · have hnone : ∀ order now, a ≠ .ask p (.append order) now := fun order now h => ha ⟨order, now, h⟩
    rw [returned_eq_none hnone, records_else h hnone hbefore hafter]
    exact (List.append_nil _).symm

/-! ## The transaction that is open -/

/-- A transaction stays the same one while it is open. -/
theorem Since.concat {at_ : Instant} (h : s.Since p acts before at_ during)
    (hafter : (s.run (acts ++ [a])).isOpen p = true) :
    s.Since p (acts ++ [a]) before at_ (during ++ [a]) := by
  refine ⟨by simp [h.split], h.closed, fun acts' hacts' => ?_⟩
  rcases List.prefix_concat_iff.mp hacts' with rfl | hacts'
  · have hsplit : before ++ .ask p .openTx at_ :: (during ++ [a]) = acts ++ [a] := by
      simp [h.split]
    rw [hsplit]
    exact hafter
  · exact h.stays acts' hacts'

/-- By induction on the acts, from their end: whoever has a transaction open has opened it, and its
journal holds the records that its appends have returned since. -/
theorem records_since (fresh : Nat → Uuid) (tables : Tables) (acts : List Act) (p : Party)
    (hopen : ((opened fresh tables).run acts).isOpen p = true) :
    ∃ before at_ during, (opened fresh tables).Since p acts before at_ during ∧
      (((opened fresh tables).run acts).world.journal p).records =
        ((opened fresh tables).run (before ++ [.ask p .openTx at_])).returns p during := by
  induction acts using List.reverseRecOn with
  | nil => cases hopen
  | append_singleton acts a ih =>
    by_cases hbefore : ((opened fresh tables).run acts).isOpen p = true
    · obtain ⟨before, at_, during, hsince, hrecords⟩ := ih hbefore
      have hrun : ((opened fresh tables).run (before ++ [.ask p .openTx at_])).run during =
          (opened fresh tables).run acts := by
        rw [← run_append, hsince.split, List.append_assoc]
        rfl
      refine ⟨before, at_, during ++ [a], hsince.concat hopen, ?_⟩
      rw [run_concat] at hopen ⊢
      rw [records_step (orderly_run fresh tables acts) hbefore hopen, hrecords, returns_concat, hrun]
    · have hclosed : ((opened fresh tables).run acts).isOpen p = false := by simpa using hbefore
      rw [run_concat] at hopen ⊢
      obtain ⟨now, rfl, hempty⟩ := (txStep (orderly_run fresh tables acts) p a).opened hclosed hopen
      refine ⟨acts, now, [], ⟨rfl, hclosed, fun acts' hacts' => ?_⟩, by rw [hempty]; rfl⟩
      rw [List.prefix_nil.mp hacts', run_concat]
      exact hopen

/-! ## The list of transfers -/

theorem transfers_commits (h : s.commits p now = true) :
    (s.step (.ask p .commit now)).world.tables.transfers =
      s.world.tables.transfers ++ (s.world.journal p).records := by
  have hcommit := Tables.transfers_commit (fun n => s.world.fresh (s.world.used + n)) now
    s.world.tables (s.world.journal p)
  rw [commit_of_commits h] at hcommit
  rw [tables_of_commits h]
  exact hcommit

/-- Only a commit that goes through, and the first step of a reset, touch the list. -/
theorem transfers_step (hreset : a ≠ .dropRows)
    (hcommit : ∀ p now, a = .ask p .commit now → s.commits p now = false) :
    (s.step a).world.tables.transfers = s.world.tables.transfers := by
  rcases s.tables_step a with h | ⟨p, now, rfl, allowed, h⟩ | ⟨rfl, -⟩
  · rw [h]
  · have htransfers := Tables.transfers_commit (fun n => s.world.fresh (s.world.used + n)) now
      s.world.tables (s.world.journal p)
    cases hresult : (s.world.tables.commit (fun n => s.world.fresh (s.world.used + n)) now
        (s.world.journal p)).2 with
    | ok u =>
      have hgoes := commits_of_ok allowed hresult
      rw [hcommit p now rfl] at hgoes
      cases hgoes
    | error v =>
      rw [hresult] at htransfers
      rw [h]
      exact htransfers
  · exact absurd rfl hreset

theorem transfers_prefix_step (s : State) (hreset : a ≠ .dropRows) :
    s.world.tables.transfers <+: (s.step a).world.tables.transfers := by
  by_cases hgoes : ∃ p now, a = .ask p .commit now ∧ s.commits p now = true
  · obtain ⟨p, now, rfl, hgoes⟩ := hgoes
    rw [transfers_commits hgoes]
    exact List.prefix_append _ _
  · have hsame := transfers_step hreset fun p now ha => by
      simpa using fun h => hgoes ⟨p, now, ha, h⟩
    exact ⟨[], by rw [List.append_nil, hsame]⟩

theorem transfers_prefix_run (s : State) (acts : List Act) (hreset : Act.dropRows ∉ acts) :
    s.world.tables.transfers <+: (s.run acts).world.tables.transfers := by
  induction acts generalizing s with
  | nil => exact List.prefix_refl _
  | cons a acts ih =>
    obtain ⟨ha, hacts⟩ := not_or.mp (List.mem_cons.not.mp hreset)
    exact (transfers_prefix_step s (Ne.symm ha)).trans (ih (s.step a) hacts)

end State

/-- At any two moments of a run without a reset between them, the list of transfers has only grown. A
commit that goes through adds the records that the appends of its transaction have returned, in the
order of the calls; any other act, a failed commit and a rollback among them, adds nothing. What is
listed of one fund is that part of the list. -/
theorem history_grows (fresh : Nat → Uuid) (tables : Tables) (acts later : List Act)
    (noReset : Act.dropRows ∉ later) :
    let s := (State.opened fresh tables).run acts
    let listing := fun fund : Uuid => s.world.tables.transfers.filter (·.fund == fund)
    (∀ fund, s.Lists fund (listing fund)) ∧
    (∃ more, (s.run later).world.tables.transfers = s.world.tables.transfers ++ more ∧
      ∀ fund, (s.run later).Lists fund (listing fund ++ more.filter (·.fund == fund))) ∧
    (∀ p now, s.commits p now = true → ∃ before at_ during,
      (State.opened fresh tables).Since p acts before at_ during ∧
      let new := ((State.opened fresh tables).run (before ++ [.ask p .openTx at_])).returns p during
      let s' := s.step (.ask p .commit now)
      s'.world.tables.transfers = s.world.tables.transfers ++ new ∧
        ∀ fund, s'.Lists fund (listing fund ++ new.filter (·.fund == fund))) ∧
    ∀ a, a ≠ .dropRows → (∀ p now, a = .ask p .commit now → s.commits p now = false) →
      (s.step a).world.tables.transfers = s.world.tables.transfers ∧
        ∀ fund, (s.step a).Lists fund (listing fund) := by
  intro s listing
  have hlists : ∀ {s' : State} {more : List Transfer},
      s'.world.tables.transfers = s.world.tables.transfers ++ more →
      ∀ fund, s'.Lists fund (listing fund ++ more.filter (·.fund == fund)) := by
    intro s' more h fund
    apply State.lists_of_eq
    rw [Tables.transferListing, h, List.filter_append]
  refine ⟨fun fund => State.lists_of_eq rfl, ?_, ?_, ?_⟩
  · obtain ⟨more, hmore⟩ := State.transfers_prefix_run s later noReset
    exact ⟨more, hmore.symm, hlists hmore.symm⟩
  · intro p now goes
    have hopen : s.isOpen p = true := by
      have allowed := (State.commits_iff.mp goes).1
      simp only [State.allows, Bool.and_eq_true] at allowed
      exact allowed.2
    obtain ⟨before, at_, during, hsince, hrecords⟩ := State.records_since fresh tables acts p hopen
    have hgrows := State.transfers_commits goes
    rw [hrecords] at hgrows
    exact ⟨before, at_, during, hsince, hgrows, hlists hgrows⟩
  · intro a hreset hcommit
    have hsame := State.transfers_step hreset hcommit
    refine ⟨hsame, fun fund => State.lists_of_eq ?_⟩
    rw [Tables.transferListing, hsame]

/-! ## Two transactions with one key -/

def adaToBen : TransferOrder :=
  { fund := hull.id, source := "Ada", target := "Ben", units := 3, key := some (Uuid.ofNat 9) }

def recording (p : Party) : List Act :=
  [.ask p .openTx ⟨1⟩, .ask p (.debit adas.id 3) ⟨1⟩, .ask p (.credit hull.id "Ben" 3) ⟨1⟩,
    .ask p (.append adaToBen) ⟨1⟩]

/-- Both have recorded a transfer with the same key, and neither has committed it. -/
def oneKey : List Act := founding 0 hull adas ++ recording 1 ++ recording 2

/-- Both commits are asked for, and one record is added: the one that the first transaction's append
returned. -/
theorem oneKey_history :
    let s := (State.opened (fun n => Uuid.ofNat (n + 100)) {}).run oneKey
    let later : List Act := [.ask 2 .commit ⟨2⟩, .ask 1 .commit ⟨3⟩]
    Act.dropRows ∉ later ∧ s.commits 2 ⟨2⟩ = true ∧
      (s.run later).Lists hull.id [adaToBen.record (Uuid.ofNat 103) ⟨1⟩] := by
  intro s later
  have hlater : Act.dropRows ∉ later := by decide
  have goes : s.commits 2 ⟨2⟩ = true := by decide +kernel
  obtain ⟨-, ⟨more, hmore, hlists⟩, -⟩ := history_grows (fun n => Uuid.ofNat (n + 100)) {} oneKey later
    hlater
  have hbefore : s.world.tables.transfers = [] := by decide +kernel
  have hafter : (s.run later).world.tables.transfers = [adaToBen.record (Uuid.ofNat 103) ⟨1⟩] := by
    decide +kernel
  have hmore' : more = [adaToBen.record (Uuid.ofNat 103) ⟨1⟩] := by
    have := hmore.symm.trans hafter
    rwa [hbefore, List.nil_append] at this
  refine ⟨hlater, goes, ?_⟩
  have := hlists hull.id
  rw [hbefore, hmore'] at this
  exact this

end UnitLedger.Transactions
