import UnitLedger.Proofs.Ledger.Calm
import UnitLedger.Proofs.Ledger.ExactlyOnce
import UnitLedger.Proofs.Ledger.Outcomes

/-!
  UnitLedger.Proofs.Ledger.Pending — what a call in a calm run still has to be told.

  A call takes effect in one of its events, the point: what it is answered, and what it does to the
  rows, is then what it would be if it ran alone. `Pending` says of each stage what is settled already.
  Until its commit a transfer only knows that its key is free; once it is about to roll back, its
  point is past. `Pending.move`: a move keeps this and leaves the rows alone, or it is the commit, and
  the point is now.
-/

namespace UnitLedger.Concurrent

open Memory (Party World Tables)

section Ids

variable {s : System Stage} {p : Party} {c : Caller Stage}

/-- The ids drawn next are new. -/
theorem Unshared.nextIds (h : Unshared s) (n : Nat)
    (hids : DistinctIds s.world.fresh (s.world.used + n)) :
    Ledger.NewIds s.world.tables ((List.range n).map fun i => s.world.fresh (s.world.used + i)) := by
  refine ⟨List.Nodup.map_on ?_ List.nodup_range, ?_⟩
  · intro i hi j hj heq
    have hi := List.mem_range.mp hi
    have hj := List.mem_range.mp hj
    have := hids _ (by omega) _ (by omega) heq
    omega
  · intro id hid hrow
    obtain ⟨i, hi, rfl⟩ := List.mem_map.mp hid
    have hi := List.mem_range.mp hi
    exact hids.not_drawn (Nat.le_add_right _ _) (by omega) (h.rows _ hrow)

/-- So are those that a call has taken. -/
theorem Unshared.newIds (h : Unshared s) (hc : s.caller p = some c) (hunfinished : ¬ c.Finished)
    (n : Nat) (hids : DistinctIds s.world.fresh (s.world.used + n)) :
    Ledger.NewIds s.world.tables
      (c.ids ++ (List.range n).map fun i => s.world.fresh (s.world.used + i)) := by
  have hnext := h.nextIds n hids
  refine ⟨List.nodup_append.mpr ⟨h.nodup p c hc, hnext.nodup, ?_⟩, ?_⟩
  · intro id hid id' hid' heq
    obtain ⟨i, hi, rfl⟩ := List.mem_map.mp hid'
    have hi := List.mem_range.mp hi
    exact hids.not_drawn (Nat.le_add_right _ _) (by omega) (heq ▸ h.drawn p c hc id hid)
  · intro id hid
    rcases List.mem_append.mp hid with hid | hid
    · exact h.unused p c hc hunfinished id hid
    · exact hnext.absent id hid

end Ids

end UnitLedger.Concurrent

namespace UnitLedger.Ledger

open Concurrent Memory
open Concurrent.Stage
open Store (Op)
open Service

def Pending (t : Tables) (point : Answer → Prop) : Stage → Prop
  | .looking o k => o.key = some k
  | .locking o | .lockWaiting o _ _ _ | .checking o | .debiting o _ | .crediting o _
  | .creditWaiting o _ | .appending o _ | .committing o _ _ => Free t o
  | .repeating _ r => point (.transfer (.ok r))
  | .withdrawing _ e => e = .store .lockTimeout ∨
      (point (.transfer (.error e)) ∧ ∀ x, e ≠ .store x)
  | .undoingFund f _ err => err.violates Constraint.fundName = true ∧
      point (.fund (.error (.duplicateFundName f.name)))
  | .findingEntry fund _ | .listingTransfers fund _ => ∃ f, t.findFund fund = some f
  | .listingEntries f fund _ => t.findFund fund = some f
  | .reopening _ _ | .relooking _ _ | .judging _ _ _ | .resetting => False
  | .finished a => a.Fails (.store .lockTimeout) ∨ (point a ∧ ∀ x, ¬ a.Fails (.store x))
  | _ => True

section Pending

variable {t t' : Tables} {point point' : Answer → Prop} {σ σ' : Stage} {w w' : World} {p : Party}
  {o : TransferOrder} {r : World × LockResult}

theorem Pending.free (h : Pending t point σ) (run : σ.lockRun w p = some (o, r)) : Free t o := by
  cases lockRun_cases run <;> exact h

/-- What is settled stays so while others change the rows. -/
theorem Pending.mono (h : Pending t point σ) (grows : Grows t t')
    (hfree : ∀ o, σ.order? = some o → Free t o → Free t' o)
    (hpoint : ∀ a, point a → point' a) : Pending t' point' σ := by
  cases σ with
  | locking o | lockWaiting o | checking o | debiting o | crediting o | creditWaiting o | appending o
  | committing o => exact hfree o rfl h
  | repeating o r => exact hpoint _ h
  | withdrawing o e => exact h.imp_right fun ⟨hp, he⟩ => ⟨hpoint _ hp, he⟩
  | undoingFund f e err => exact ⟨h.1, hpoint _ h.2⟩
  | findingEntry fund owner | listingTransfers fund params =>
    obtain ⟨f, hf⟩ := h
    exact ⟨f, grows.findFund hf⟩
  | listingEntries f fund params => exact grows.findFund h
  | finished a => exact h.imp_right fun ⟨hp, ha⟩ => ⟨hpoint _ hp, ha⟩
  | _ => exact h

end Pending

/-! ## A source that was found can pay -/

section Source

variable {s : System Stage} {p : Party} {c : Caller Stage} {young : Party → Prop}
  {o : TransferOrder} {source : Entry} {r : Transfer}

/-- The entry that a transfer found for its source is still there, and it still covers the units. -/
theorem source_covers (steady : Steady young s) (hp : young p) (hc : s.caller p = some c)
    (hsource : c.progress.source? = some (o, source)) :
    ∃ d ∈ s.world.tables.entries, d.id = source.id ∧ d.fund = o.fund ∧ d.owner = o.source ∧
      o.units ≤ d.units := by
  have hholding := mem_holding_of_source? hsource
  obtain ⟨hfund, howner, henough, hroot⟩ := steady.sound.source p c o source hc hsource
  obtain ⟨d, hd, hid⟩ := steady.lasting.present p c hp hc source hholding
  obtain ⟨hdf, hdo⟩ := hroot.2 d hd hid
  have hunits := steady.guarded.units p c hc source hholding d hd hid
  exact ⟨d, hd, hid, hdf.trans hfund, hdo.trans howner, Int.le_trans henough hunits⟩

/-- So the rows admit the record of a transfer that commits, if its key is free. -/
theorem admits_of_committing (steady : Steady young s) (conserved : Conserved s) (hp : young p)
    (hc : s.caller p = some c) (hstage : c.progress = .committing o source r)
    (hfree : Free s.world.tables o) :
    ∃ d, d.id = source.id ∧ s.world.tables.Admits d r := by
  obtain ⟨d, hd, hid, hdf, hdo, henough⟩ :=
    source_covers steady hp hc (by rw [hstage]; rfl)
  obtain ⟨request, -, hvalid⟩ := (steady.sound.origin p c hc).order o (by rw [hstage]; rfl)
  have accepted := TransferOrder.accepted hvalid
  obtain ⟨id, t, rfl⟩ := (steady.sound.origin p c hc).record o source r hstage
  have wf := steady.sound.tables
  obtain ⟨f, hf, hfid⟩ := Tables.hasFund_iff.mp (hdf ▸ wf.funds d hd)
  obtain ⟨first, -, acc⟩ := conserved.accounts f hf
  have hpositive : 0 < o.units := accepted.positive
  exact ⟨d, hid, acc.admits wf hd (hdf.trans hfid.symm) hfid.symm hdo accepted.differ hpositive henough
    hfree⟩

end Source

/-! ## Moves -/

section Moves

variable {s : System Stage} {p : Party} {c : Caller Stage} {young : Party → Prop} {now : Instant}
  {w : World} {σ σ₀ : Stage} {answered : Option Op} {point point' : Answer → Prop}
  {saw saw' : TransferOrder → Option Entry → Prop} {o : TransferOrder} {source : Entry}
  {r : Transfer} {f : Fund} {e : Entry}

structure Placed (young : Party → Prop) (s : System Stage) (p : Party) (c : Caller Stage) : Prop where
  steady : Steady young s
  conserved : Conserved s
  unshared : Unshared s
  young : young p
  caller : s.caller p = some c
  begun : c.Begun
  unfinished : ¬ c.Finished

namespace Placed

variable (placed : Placed young s p c)

include placed

theorem wf : s.world.tables.WellFormed := placed.steady.sound.tables

theorem start (hσ : c.progress = σ) (h : σ.first? = some σ₀) :
    ∃ now, Stage.start c.fundId c.entryId now c.call = σ₀ := placed.begun σ₀ (hσ ▸ h)

theorem accepted (h : c.progress.order? = some o) : ∃ request, o.Accepted request := by
  obtain ⟨request, -, hvalid⟩ := (placed.steady.sound.origin p c placed.caller).order o h
  exact ⟨request, TransferOrder.accepted hvalid⟩

theorem journal {j : Journal} (h : c.progress.journal? = some j) : s.world.journal p = j :=
  placed.steady.sound.journal p c j placed.caller h

/-- A commit draws an id for every write. -/
theorem commit_used {j : Journal} (h : c.progress.journal? = some j) (now : Instant) :
    (s.world.commitTx p now).1.used = s.world.used + j.length := by
  show s.world.used + (s.world.journal p).length = _
  rw [placed.journal h]

theorem newIds (hids : DistinctIds s.world.fresh s.world.used) :
    NewIds s.world.tables [c.fundId, c.entryId] := by
  have hall := placed.unshared.newIds placed.caller placed.unfinished 0 hids
  exact hall.sublist (by simp [Caller.ids])

/-- The rows of a creation that is under way can be founded, if the name is free. -/
theorem founding (h : c.progress.founding? = some (f, e)) :
    e.fund = f.id ∧ 0 ≤ e.units ∧ s.world.tables.hasFund f.id = false := by
  obtain ⟨name, total, owner, -, hf, he⟩ :=
    (placed.steady.sound.origin p c placed.caller).founding f e h
  exact ⟨he.fund, he.nonneg,
    (placed.steady.sound.founding_new placed.caller placed.unfinished h).2⟩

/-- The record of a transfer with its locks is not refused. -/
theorem append_ok (hstage : c.progress = .appending o source) (hfree : Free s.world.tables o)
    (id : Uuid) (t : Instant) :
    (s.world.journal p).addTransfer s.world.tables (o.record id t) =
      .ok (Journal.move source.id (o.record id t)) := by
  obtain ⟨request, accepted⟩ := placed.accepted (o := o) (by rw [hstage]; rfl)
  have hpositive := accepted.positive
  have hsource : c.progress.source? = some (o, source) := by rw [hstage]; rfl
  obtain ⟨d, hd, -, hdf, hdo, -⟩ := source_covers placed.steady placed.young placed.caller hsource
  have hactive : s.world.tables.hasActive o.fund o.source = true :=
    placed.wf.hasActive_iff.mpr ⟨d, hd, hdf, hdo⟩
  have hmove := Tables.addTransfer_move (r := o.record id t) placed.wf source.id accepted.differ
    (show 0 < o.units by omega) hactive
  have hunused : ((o.record id t).key.any fun k => (s.world.tables.findByKey k).isSome) = false := by
    cases hk : (o.record id t).key with
    | none => rfl
    | some k => simp [hfree k hk]
  rw [hunused] at hmove
  rw [placed.journal (j := [.debit source.id o.units, .credit o.fund o.target o.units])
    (by rw [hstage]; rfl)]
  exact hmove

/-- The commit of a transfer is not refused, and it does what the transfer would do alone now. -/
theorem commit_ok (hstage : c.progress = .committing o source r) (hfree : Free s.world.tables o)
    (now : Instant) (hids : DistinctIds s.world.fresh (s.world.used + 3)) :
    (s.world.commitTx p now).2 = .ok () ∧
      Alone s.world.tables c.call (.transfer (.ok r)) (s.world.commitTx p now).1.tables := by
  obtain ⟨d, hid, admits⟩ := admits_of_committing placed.steady placed.conserved placed.young
    placed.caller hstage hfree
  have hj : s.world.journal p = Journal.move d.id r := by
    rw [hid]
    exact placed.journal (by rw [hstage]; rfl)
  have hnew := placed.unshared.newIds placed.caller placed.unfinished 3 hids
  have hlist : c.ids ++ (List.range 3).map (fun i => s.world.fresh (s.world.used + i)) =
      [c.fundId, c.entryId, r.id, s.world.fresh (s.world.used + 0), s.world.fresh (s.world.used + 1),
        s.world.fresh (s.world.used + 2)] := by
    rw [Caller.ids, hstage]
    rfl
  rw [hlist] at hnew
  have hentry : s.world.fresh (s.world.used + 1) ∉ s.world.tables.entryIds := fun hmem =>
    hnew.absent _ (by simp) (List.mem_append_left _ (List.mem_append_right _ hmem))
  have hcommit : s.world.tables.commit (fun n => s.world.fresh (s.world.used + n)) now
      (Journal.move d.id r) =
        (s.world.tables.settled (s.world.fresh (s.world.used + 1)) now d r, .ok ()) :=
    Tables.commit_move_of_admits placed.wf admits hentry
  obtain ⟨id, t, rfl⟩ := (placed.steady.sound.origin p c placed.caller).record o source r hstage
  obtain ⟨now₀, hstart⟩ := placed.start hstage rfl
  simp only [World.commitTx, hj, hcommit]
  exact ⟨rfl, alone_settled placed.wf hstart now hnew admits⟩

/-- The commit of a creation founds the fund, or it is refused for the name and changes nothing. -/
theorem commitFund_rows (hstage : c.progress = .committingFund f e) (now : Instant) :
    (s.world.tables.hasFundName f.name = false ∧ (s.world.commitTx p now).2 = .ok () ∧
      (s.world.commitTx p now).1.tables = s.world.tables.founded f e) ∨
    (s.world.tables.hasFundName f.name = true ∧
      (s.world.commitTx p now).2 = .error (.uniqueViolation Constraint.fundName) ∧
      (s.world.commitTx p now).1.tables = s.world.tables) := by
  obtain ⟨hfund, hunits, hid⟩ := placed.founding (f := f) (e := e) (by rw [hstage]; rfl)
  have hj : s.world.journal p = Journal.founding f e := placed.journal (by rw [hstage]; rfl)
  have hcommit := Tables.commit_founding (fun n => s.world.fresh (s.world.used + n)) now placed.wf
    hfund hunits
  rw [hid] at hcommit
  cases hname : s.world.tables.hasFundName f.name with
  | true =>
    rw [hname] at hcommit
    simp only [Bool.false_eq_true, if_false, if_true] at hcommit
    simp only [World.commitTx, hj, hcommit]
    exact Or.inr ⟨trivial, rfl, rfl⟩
  | false =>
    rw [hname] at hcommit
    simp only [Bool.false_eq_true, if_false] at hcommit
    simp only [World.commitTx, hj, hcommit]
    exact Or.inl ⟨trivial, rfl, rfl⟩

/-- Where it founds the fund, the creation does as it would alone now. -/
theorem commitFund_cases (hstage : c.progress = .committingFund f e) (now : Instant)
    (hids : DistinctIds s.world.fresh (s.world.used + 2)) :
    ((s.world.commitTx p now).2 = .ok () ∧
      Alone s.world.tables c.call (.fund (.ok f)) (s.world.commitTx p now).1.tables) ∨
    ((s.world.commitTx p now).2 = .error (.uniqueViolation Constraint.fundName) ∧
      (s.world.commitTx p now).1.tables = s.world.tables ∧
      s.world.tables.hasFundName f.name = true) := by
  rcases placed.commitFund_rows hstage now with ⟨hname, hdone, hrows⟩ | ⟨hname, hfailed, hrows⟩
  · obtain ⟨hfund, hunits, hid⟩ := placed.founding (f := f) (e := e) (by rw [hstage]; rfl)
    have hnew := placed.unshared.newIds placed.caller placed.unfinished 2 hids
    have hlist : c.ids ++ (List.range 2).map (fun i => s.world.fresh (s.world.used + i)) =
        [c.fundId, c.entryId, s.world.fresh (s.world.used + 0),
          s.world.fresh (s.world.used + 1)] := by
      rw [Caller.ids, hstage]
      rfl
    rw [hlist] at hnew
    obtain ⟨now₀, hstart⟩ := placed.start hstage rfl
    rw [hrows]
    exact Or.inl ⟨hdone, alone_founded placed.wf hstart hnew hfund hunits hid hname⟩
  · exact Or.inr ⟨hfailed, hrows, hname⟩

/-- The creation of a fund is refused only for its name. -/
theorem taken_of_refused {v : Violation} (hstage : c.progress = .insertingFund f e)
    (refused : (s.world.journal p).addFund s.world.tables f = .error v) :
    v = .unique Constraint.fundName ∧ s.world.tables.hasFundName f.name = true := by
  rw [placed.journal (j := []) (by rw [hstage]; rfl)] at refused
  cases hname : s.world.tables.hasFundName f.name with
  | true =>
    simp only [Journal.addFund, hname, Bool.true_or, if_true, Except.error.injEq] at refused
    exact ⟨refused.symm, rfl⟩
  | false => simp [Journal.addFund, hname, Journal.createsFundName] at refused

/-- The first entry of a fund is not refused. -/
theorem entry_ok (hstage : c.progress = .insertingEntry f e) :
    ∃ j, (s.world.journal p).addEntry s.world.tables e = .ok j := by
  obtain ⟨hfund, -, hid⟩ := placed.founding (f := f) (e := e) (by rw [hstage]; rfl)
  have hnone := Tables.hasActive_of_no_fund placed.wf hid e.owner
  rw [placed.journal (j := [.fund f]) (by rw [hstage]; rfl)]
  simp [Journal.addEntry, Journal.knowsFund, Journal.createsFund, hnone, hfund, Journal.createdEntry]

theorem alone_read {fund : Uuid} {reading : Reading}
    (hσ : c.progress = σ) (hfirst : σ.first? = some (.findingFund fund reading))
    (hids : DistinctIds s.world.fresh s.world.used) :
    Alone s.world.tables c.call ((s.world.tables.findFund fund).elim (reading.missing fund)
      fun f => readAnswer s.world.tables fund f reading) s.world.tables := by
  obtain ⟨start, hstart⟩ := placed.start hσ hfirst
  exact Ledger.alone_read hstart (placed.newIds hids)

theorem alone_answered {fund : Uuid} {reading : Reading} (hσ : c.progress = σ)
    (hfirst : σ.first? = some (.findingFund fund reading))
    (hids : DistinctIds s.world.fresh s.world.used)
    (found : s.world.tables.findFund fund = some f) :
    Alone s.world.tables c.call (readAnswer s.world.tables fund f reading) s.world.tables := by
  have halone := placed.alone_read hσ hfirst hids
  rwa [found] at halone

theorem alone_taken (hσ : c.progress = σ) (hfirst : σ.first? = some (.openingFund f e))
    (hids : DistinctIds s.world.fresh s.world.used)
    (hname : s.world.tables.hasFundName f.name = true) :
    Alone s.world.tables c.call (.fund (.error (.duplicateFundName f.name))) s.world.tables := by
  obtain ⟨start, hstart⟩ := placed.start hσ hfirst
  exact Ledger.alone_taken hstart (placed.newIds hids) hname

theorem alone_found {k : Uuid} (hstage : c.progress = .looking o k) (hkey : o.key = some k)
    (hids : DistinctIds s.world.fresh s.world.used)
    (found : s.world.tables.findByKey k = some r) :
    Alone s.world.tables c.call
      (.transfer (if o.describes r then .ok r else .error .duplicateIdempotencyKey))
      s.world.tables := by
  obtain ⟨start, hstart⟩ := placed.start hstage rfl
  exact Ledger.alone_found hstart (placed.newIds hids) hkey found

end Placed

/-- On rows with this entry of the source, or none, on which the order's key is free and its fund exists
if it does now, the transfer alone would be answered `a`. -/
def Judged (now : Tables) (call : Call) (o : TransferOrder) (x : Option Entry) (a : Answer) : Prop :=
  ∀ t fundId entryId start, Stage.start fundId entryId start call = .opening o →
    NewIds t [fundId, entryId] → t.WellFormed → Free t o → t.activeOf o.fund o.source = x →
    t.hasFund o.fund = now.hasFund o.fund → Alone t call a t

theorem judged_missing {t : Tables} {call : Call} (differ : o.source ≠ o.target) :
    Judged t call o none (.transfer (.error (if t.hasFund o.fund
      then .ownerNotFound o.fund o.source else .fundNotFound o.fund))) := by
  intro t' fundId entryId start hstart hnew wf hfree hsource hfund
  rw [← hfund]
  exact alone_missing wf hstart hnew differ hfree hsource

theorem judged_short {t : Tables} {call : Call} (differ : o.source ≠ o.target)
    (hshort : e.units < o.units) :
    Judged t call o (some e) (.transfer (.error (.insufficientUnits e.units o.units))) := by
  intro t' fundId entryId start hstart hnew wf hfree hsource _
  exact alone_short wf hstart hnew differ hfree hsource hshort

/-- A read does not fail in the store. -/
theorem readAnswer_clean (t : Tables) (fund : Uuid) (f : Fund) (reading : Reading) (x : StoreError) :
    ¬ (readAnswer t fund f reading).Fails (.store x) := by
  cases reading with
  | entry owner => cases h : t.activeOf fund owner <;> simp [readAnswer, Answer.Fails, h]
  | _ => simp [readAnswer, Answer.Fails]

theorem missing_clean (fund : Uuid) (reading : Reading) (x : StoreError) :
    ¬ (reading.missing fund).Fails (.store x) := by
  cases reading <;> simp [Reading.missing, Answer.Fails]

/-- A move leaves the rows alone and keeps what is settled, or it is the one commit of the call and does
to the rows what the call would do alone. -/
theorem Pending.move (pend : Pending s.world.tables point σ₀) (placed : Placed young s p c)
    (hσ : c.progress = σ₀) (before : Sighted saw σ₀) (after : Sighted saw' σ)
    (hsaw : ∀ o x, saw o x → saw' o x) (move : Stage.Move s.world p now σ₀ w σ answered)
    (hids : DistinctIds w.fresh w.used)
    (hlater : w.tables = s.world.tables → ∀ a, point a → point' a)
    (hnow : w.tables = s.world.tables → ∀ a, Alone s.world.tables c.call a s.world.tables → point' a)
    (hthen : w.tables = s.world.tables → ∀ o x a, Free s.world.tables o → saw' o x →
      Judged s.world.tables c.call o x a → point' a) :
    (w.tables = s.world.tables ∧ Pending s.world.tables point' σ) ∨
    (∃ a, σ = .finished a ∧ Alone s.world.tables c.call a w.tables ∧ ∀ x, ¬ a.Fails (.store x)) := by
  have hframe := move.frame
  have hids' : DistinctIds s.world.fresh w.used := hframe.fresh ▸ hids
  have hold : DistinctIds s.world.fresh s.world.used := hids'.mono hframe.used
  have hlocks : ∀ {o w' out}, σ₀.lockRun s.world p = some (o, w', out) →
      w'.tables = s.world.tables := by
    intro o w' out run
    obtain ⟨locks, rfl⟩ := lockRun_locks run
    rfl
  have hdiffer : ∀ {o}, σ₀.order? = some o → o.source ≠ o.target := by
    intro o ho
    obtain ⟨request, accepted⟩ := placed.accepted (hσ ▸ ho)
    exact accepted.differ
  have hdrawn : ∀ {j}, σ₀.journal? = some j → w = (s.world.commitTx p now).1 →
      DistinctIds s.world.fresh (s.world.used + j.length) := by
    intro j hj hw
    rw [hw, placed.commit_used (hσ ▸ hj)] at hids'
    exact hids'
  have hfound : ∀ {k}, σ₀.journal? = some [] → (s.world.journal p).findByKey s.world.tables k =
      s.world.tables.findByKey k := fun hj => findByKey_nil (placed.journal (hσ ▸ hj))
  cases move with
  | idle => exact absurd ⟨_, hσ⟩ placed.unfinished
  | @openKeyless o key =>
    refine Or.inl ⟨rfl, fun k hk => ?_⟩
    rw [key] at hk
    cases hk
  | openKeyed key => exact Or.inl ⟨rfl, key⟩
  | @lookFresh o k found =>
    refine Or.inl ⟨rfl, fun k' hk' => ?_⟩
    have hkey : o.key = some k := pend
    rw [hkey] at hk'
    cases hk'
    rw [← hfound rfl, found]
  | @lookSame o k r found same =>
    rw [hfound rfl] at found
    have halone := placed.alone_found hσ pend hold found
    rw [if_pos same] at halone
    exact Or.inl ⟨rfl, hnow rfl _ halone⟩
  | @lookConflict o k r found differs =>
    rw [hfound rfl] at found
    have halone := placed.alone_found hσ pend hold found
    rw [differs] at halone
    exact Or.inl ⟨rfl, Or.inr ⟨hnow rfl _ halone, by simp⟩⟩
  | lockNone run | lockEnough run | lockPause run => exact Or.inl ⟨hlocks run, pend.free run⟩
  | @lockShort _ _ o _ e run source short =>
    obtain ⟨x, hx, hshort, hpresent, -⟩ := after
    rw [hpresent]
    have hpoint := hthen (hlocks run) o _ _ (pend.free run) hx
      (judged_short (hdiffer (lockRun_order? run)) hshort)
    exact Or.inl ⟨hlocks run, Or.inr ⟨hpoint, by simp⟩⟩
  | lockError run => exact absurd run Stage.lockRun_ne_error
  | lockGiveUp | creditGiveUp => exact Or.inl ⟨rfl, Or.inl rfl⟩
  | @check o =>
    have hknows : (s.world.journal p).knowsFund s.world.tables o.fund =
        s.world.tables.hasFund o.fund := by
      rw [placed.journal (j := []) (hσ ▸ rfl)]
      simp [Journal.knowsFund, Journal.createsFund]
    have hpoint := hthen rfl o _ _ pend (hsaw _ _ before) (judged_missing (hdiffer rfl))
    rw [hknows]
    refine Or.inl ⟨rfl, Or.inr ⟨hpoint, ?_⟩⟩
    split <;> simp
  | debit | creditNew | creditLocked | creditPause | creditGo | append => exact Or.inl ⟨rfl, pend⟩
  | @refuse o e v refused =>
    -- The key is free and both owners are known, so the record is not refused.
    rw [placed.append_ok hσ pend] at refused
    cases refused
  | commit =>
    have halone := (placed.commit_ok hσ pend now (hdrawn rfl rfl)).2
    exact Or.inr ⟨_, rfl, halone, by simp [Answer.Fails]⟩
  | commitRefused failed | commitBeaten failed =>
    rw [(placed.commit_ok hσ pend now (hdrawn rfl rfl)).1] at failed
    cases failed
  | repeated => exact Or.inl ⟨rfl, Or.inr ⟨hlater rfl _ pend, by simp [Answer.Fails]⟩⟩
  | @withdraw o e race =>
    refine Or.inl ⟨rfl, ?_⟩
    rcases pend with rfl | ⟨hpoint, hclean⟩
    · exact Or.inl rfl
    · exact Or.inr ⟨hlater rfl _ hpoint, fun x hx => hclean x (Except.error.inj hx)⟩
  | @withdrawBeaten o e k race =>
    -- What is to be answered is a lock timeout or no store error at all, never a used key.
    obtain ⟨e', rfl, hviolates, -⟩ := raceKey?_eq_some race
    rcases pend with htime | ⟨-, hclean⟩
    · cases htime
      simp [StoreError.violates] at hviolates
    · exact absurd rfl (hclean e')
  | reopen | relook | judge | reset => exact False.elim pend
  | openFund | insertFund | insertEntry => exact Or.inl ⟨rfl, trivial⟩
  | @refuseFund f e v refused =>
    obtain ⟨rfl, hname⟩ := placed.taken_of_refused hσ refused
    exact Or.inl ⟨rfl, by simp [Violation.storeError, StoreError.violates],
      hnow rfl _ (placed.alone_taken hσ rfl hold hname)⟩
  | @refuseEntry f e v refused =>
    obtain ⟨j, accepted⟩ := placed.entry_ok hσ
    rw [accepted] at refused
    cases refused
  | @commitFund f e done =>
    rcases placed.commitFund_cases hσ now (hdrawn rfl rfl) with ⟨-, halone⟩ | ⟨hfailed, -⟩
    · exact Or.inr ⟨_, rfl, halone, by simp [Answer.Fails]⟩
    · rw [hfailed] at done
      cases done
  | @commitFundRefused f e err failed =>
    rcases placed.commitFund_cases hσ now (hdrawn rfl rfl) with ⟨hok, -⟩ | ⟨hfailed, hsame, hname⟩
    · rw [hok] at failed
      cases failed
    · rw [hfailed] at failed
      cases failed
      have halone := placed.alone_taken hσ rfl hold hname
      refine Or.inl ⟨hsame, Or.inr ⟨hnow hsame _ halone, ?_⟩⟩
      simp [Answer.Fails, fundError, StoreError.violates]
  | @undoFund f e err =>
    obtain ⟨hviolates, hpoint⟩ := pend
    simp only [fundError, hviolates, if_true]
    exact Or.inl ⟨rfl, Or.inr ⟨hlater rfl _ hpoint, by simp [Answer.Fails]⟩⟩
  | @noFund fund reading found =>
    have halone := placed.alone_read hσ rfl hold
    rw [found] at halone
    exact Or.inl ⟨rfl, Or.inr ⟨hnow rfl _ halone, missing_clean fund reading⟩⟩
  | @readFund fund f found =>
    have halone := placed.alone_answered hσ rfl hold found
    exact Or.inl ⟨rfl, Or.inr ⟨hnow rfl _ halone, readAnswer_clean s.world.tables fund f .fund⟩⟩
  | goEntry found | goTransfers found => exact Or.inl ⟨rfl, _, found⟩
  | goEntries found => exact Or.inl ⟨rfl, found⟩
  | @readEntry fund owner =>
    obtain ⟨f, found⟩ := pend
    have halone := placed.alone_answered hσ rfl hold found
    exact Or.inl ⟨rfl, Or.inr ⟨hnow rfl _ halone,
      readAnswer_clean s.world.tables fund f (.entry owner)⟩⟩
  | @readEntries f fund params =>
    have found : s.world.tables.findFund fund = some f := pend
    have halone := placed.alone_answered hσ rfl hold found
    exact Or.inl ⟨rfl, Or.inr ⟨hnow rfl _ halone,
      readAnswer_clean s.world.tables fund f (.capTable params)⟩⟩
  | @readTransfers fund params =>
    obtain ⟨f, found⟩ := pend
    have halone := placed.alone_answered hσ rfl hold found
    exact Or.inl ⟨rfl, Or.inr ⟨hnow rfl _ halone,
      readAnswer_clean s.world.tables fund f (.transfers params)⟩⟩
  | @readFunds params =>
    obtain ⟨start, hstart⟩ := placed.start hσ rfl
    have halone := alone_funds hstart (placed.newIds hold)
    exact Or.inl ⟨rfl, Or.inr ⟨hnow rfl _ halone, by simp [Answer.Fails]⟩⟩
  | readHealth =>
    obtain ⟨start, hstart⟩ := placed.start hσ rfl
    have halone := alone_health hstart (placed.newIds hold)
    exact Or.inl ⟨rfl, Or.inr ⟨hnow rfl _ halone, by simp [Answer.Fails]⟩⟩

end Moves

end UnitLedger.Ledger
