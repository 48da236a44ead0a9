import UnitLedger.Proofs.Service.Exchange
import UnitLedger.Service.Transfers

/-!
  UnitLedger.Proofs.Service.Protocol — what the services that write ask a store, whatever it answers.

  A transfer and the creation of a fund keep to their protocol with every store: with one that fails at
  any operation, that answers differently each time, or that answers what no ledger would. Nothing is
  asked for a request that is not valid. The operations of a transaction come in one order, each only
  after all earlier ones have succeeded; a transaction that was opened is ended, by a commit only after
  all its writes have succeeded and by a rollback otherwise, whatever the rollback is answered
  (`TransferTransaction`, `FundTransaction`). A transfer looks at the store once more in one case only,
  and writes nothing there (`TransferProtocol.again`).

  `Work` lists the ways in which the work inside a transfer's transaction can go. It is read off the
  program once; the protocol is read off these ways.
-/

namespace UnitLedger.Service

open Store (Op Backend Exchange Program Service)
open Store.Program (Runs)

/-! ## The protocols -/

def lockBoth (o : TransferOrder) : Op := .lockEntries o.fund [o.source, o.target]

def lookUps (o : TransferOrder) : List Op := o.key.toList.map .findByKey

def moveOps (o : TransferOrder) (source : Entry) : List Op :=
  [.debit source.id o.units, .credit o.fund o.target o.units, .append o]

def sourceOf (o : TransferOrder) (locked : List Entry) : Option Entry :=
  locked.find? fun e => e.owner == o.source

def transaction (work : List Exchange) (last : Exchange) : List Exchange :=
  ⟨.openTx, .ok ()⟩ :: work ++ [last]

structure TransferTransaction (o : TransferOrder) (work : List Exchange) (last : Exchange) : Prop where
  /-- What is asked, in this order. -/
  order : (∃ source, work.map (·.op) <+: lookUps o ++ lockBoth o :: moveOps o source) ∨
    work.map (·.op) <+: lookUps o ++ [lockBoth o, .fundExists o.fund]
  /-- Each operation is asked for only after all earlier ones have succeeded. -/
  onward : ∀ x ∈ work.dropLast, x.error? = none
  /-- A key that is known ends the work. -/
  known : ∀ k record, ⟨.findByKey k, .ok (some record)⟩ ∈ work → work.length = 1
  /-- The fund is asked for only if no entry that was locked is the source's. -/
  absent : .fundExists o.fund ∈ work.map (·.op) →
    ∃ locked : List Entry, ⟨lockBoth o, .ok locked⟩ ∈ work ∧ ∀ e ∈ locked, e.owner ≠ o.source
  /-- Units are taken only from the source's entry that was locked, and only if it has as many. -/
  covered : ∀ id units, .debit id units ∈ work.map (·.op) →
    ∃ locked source, ⟨lockBoth o, .ok locked⟩ ∈ work ∧ sourceOf o locked = some source ∧
      id = source.id ∧ units = o.units ∧ o.units ≤ source.units
  ends : last.op = .commit ∨ last.op = .rollback
  commits : last.op = .commit ↔ ∃ record, work.getLast? = some ⟨.append o, .ok record⟩
  /-- The work stops early only for one of these reasons. -/
  reason : last.op = .rollback → ∃ x, work.getLast? = some x ∧
    (x.error? ≠ none ∨ (∃ k record, x = ⟨.findByKey k, .ok (some record)⟩) ∨
      x.op = .fundExists o.fund ∨
      ∃ locked source, x = ⟨lockBoth o, .ok locked⟩ ∧ sourceOf o locked = some source ∧
        source.units < o.units)

/-- The second transaction of a transfer looks the key up and is given up. -/
inductive SecondLook (k : Uuid) : List Exchange → Prop where
  | refused (e : StoreError) : SecondLook k [⟨.openTx, .error e⟩]
  | looks (found : (Op.findByKey k).Answer) (ended : Op.rollback.Answer) :
      SecondLook k (transaction [⟨.findByKey k, found⟩] ⟨.rollback, ended⟩)

inductive TransferProtocol (o : TransferOrder) : List Exchange → Prop where
  | refused (e : StoreError) : TransferProtocol o [⟨.openTx, .error e⟩]
  | once {work last} (first : TransferTransaction o work last) :
      TransferProtocol o (transaction work last)
  | again {work last k others} (first : TransferTransaction o work last) (given : o.key = some k)
      (raced : ∃ x ∈ work ++ [last], x.op ≠ .rollback ∧
        x.error? = some (.uniqueViolation Constraint.idempotencyKey))
      (second : SecondLook k others) : TransferProtocol o (transaction work last ++ others)

structure FundTransaction (f : Fund) (e : Entry) (work : List Exchange) (last : Exchange) : Prop where
  order : work.map (·.op) <+: [.createFund f, .createEntry e]
  onward : ∀ x ∈ work.dropLast, x.error? = none
  ends : last.op = .commit ∨ last.op = .rollback
  commits : last.op = .commit ↔
    work.map (·.op) = [.createFund f, .createEntry e] ∧ ∀ x ∈ work, x.error? = none
  /-- The work is given up only because its last operation has failed. -/
  reason : last.op = .rollback → ∃ x, work.getLast? = some x ∧ x.error? ≠ none

inductive FundProtocol (f : Fund) (e : Entry) : List Exchange → Prop where
  | refused (err : StoreError) : FundProtocol f e [⟨.openTx, .error err⟩]
  | once {work last} (only : FundTransaction f e work last) : FundProtocol f e (transaction work last)

def checkedFund (fundId entryId : Uuid) (now : Instant) (name : String) (totalUnits : Int)
    (owner : String) : Except LedgerError (Fund × Entry) := do
  let f ← Fund.create fundId now name totalUnits
  let e ← Entry.create entryId now f.id owner totalUnits
  return (f, e)

/-! ## The work inside a transfer's transaction -/

inductive Fresh (o : TransferOrder) : List Exchange → Prop where
  | keyless (none : o.key = none) : Fresh o []
  | unknown {k} (given : o.key = some k) : Fresh o [⟨.findByKey k, .ok none⟩]

inductive Writing (o : TransferOrder) (source : Entry) :
    List Exchange → Except LedgerError Transfer → Prop where
  | debit (e : StoreError) :
      Writing o source [⟨.debit source.id o.units, .error e⟩] (.error (.store e))
  | credit (e : StoreError) :
      Writing o source [⟨.debit source.id o.units, .ok ()⟩,
        ⟨.credit o.fund o.target o.units, .error e⟩] (.error (.store e))
  | append (e : StoreError) :
      Writing o source [⟨.debit source.id o.units, .ok ()⟩,
        ⟨.credit o.fund o.target o.units, .ok ()⟩, ⟨.append o, .error e⟩] (.error (.store e))
  | done (record : Transfer) :
      Writing o source [⟨.debit source.id o.units, .ok ()⟩,
        ⟨.credit o.fund o.target o.units, .ok ()⟩, ⟨.append o, .ok record⟩] (.ok record)

/-- What it comes to that the source has no entry, from the answer whether there is such a fund. -/
inductive Unfound (o : TransferOrder) : (Op.fundExists o.fund).Answer → LedgerError → Prop where
  | fails (e : StoreError) : Unfound o (.error e) (.store e)
  | owner : Unfound o (.ok true) (.ownerNotFound o.fund o.source)
  | fund : Unfound o (.ok false) (.fundNotFound o.fund)

/-- How the work inside the transaction can go, and what it comes to. -/
inductive Work (o : TransferOrder) : List Exchange → Except LedgerError Applied → Prop where
  | lookupFails {k} (given : o.key = some k) (e : StoreError) :
      Work o [⟨.findByKey k, .error e⟩] (.error (.store e))
  | replays {k} (given : o.key = some k) (record : Transfer) {r}
      (answer : r = .ok (.replayed record) ∨ r = .error .duplicateIdempotencyKey) :
      Work o [⟨.findByKey k, .ok (some record)⟩] r
  | lockFails {pre} (fresh : Fresh o pre) (e : StoreError) :
      Work o (pre ++ [⟨lockBoth o, .error e⟩]) (.error (.store e))
  | missing {pre locked exists_ e} (fresh : Fresh o pre) (none : sourceOf o locked = none)
      (answer : Unfound o exists_ e) :
      Work o (pre ++ [⟨lockBoth o, .ok locked⟩, ⟨.fundExists o.fund, exists_⟩]) (.error e)
  | short {pre locked source} (fresh : Fresh o pre) (found : sourceOf o locked = some source)
      (few : source.units < o.units) :
      Work o (pre ++ [⟨lockBoth o, .ok locked⟩])
        (.error (.insufficientUnits source.units o.units))
  | writes {pre locked source xs r} (fresh : Fresh o pre)
      (found : sourceOf o locked = some source) (enough : o.units ≤ source.units)
      (writing : Writing o source xs r) :
      Work o (pre ++ ⟨lockBoth o, .ok locked⟩ :: xs) (r.map .moved)

variable {o : TransferOrder} {source : Entry} {xs work : List Exchange} {last : Exchange}

theorem runs_findReplay {r : Except LedgerError (Option Transfer)}
    (h : Runs (findReplay o).run xs r) :
    (Fresh o xs ∧ r = .ok none) ∨
      ∃ k, o.key = some k ∧
        ((∃ e, xs = [⟨.findByKey k, .error e⟩] ∧ r = .error (.store e)) ∨
          ∃ record, xs = [⟨.findByKey k, .ok (some record)⟩] ∧
            (r = .ok (some record) ∨ r = .error .duplicateIdempotencyKey)) := by
  unfold findReplay at h
  split at h
  · rename_i hkey
    obtain ⟨rfl, rfl⟩ := Service.runs_pure.mp h
    exact Or.inl ⟨.keyless hkey, rfl⟩
  · rename_i k hkey
    rcases Service.runs_ask_bind.mp h with ⟨e, rfl, rfl⟩ | ⟨found, zs, rfl, hrest⟩
    · exact Or.inr ⟨k, hkey, Or.inl ⟨e, rfl, rfl⟩⟩
    · cases found with
      | none =>
        obtain ⟨rfl, rfl⟩ := Service.runs_pure.mp hrest
        exact Or.inl ⟨.unknown hkey, rfl⟩
      | some record =>
        refine Or.inr ⟨k, hkey, Or.inr ⟨record, ?_⟩⟩
        by_cases hsame : o.describes record = true
        · simp only [TransferOrder.replay, hsame, if_true] at hrest
          obtain ⟨rfl, rfl⟩ := Service.runs_pure.mp hrest
          exact ⟨rfl, Or.inl rfl⟩
        · simp only [TransferOrder.replay, hsame] at hrest
          obtain ⟨rfl, rfl⟩ := Service.runs_report_throw.mp hrest
          exact ⟨rfl, Or.inr rfl⟩

theorem runs_lockSource {r : Except LedgerError Entry} (h : Runs (lockSource o).run xs r) :
    (∃ e, xs = [⟨lockBoth o, .error e⟩] ∧ r = .error (.store e)) ∨
      ∃ locked, (∃ source, sourceOf o locked = some source ∧
          xs = [⟨lockBoth o, .ok locked⟩] ∧ r = .ok source) ∨
        sourceOf o locked = none ∧ ∃ exists_ e, Unfound o exists_ e ∧
          xs = [⟨lockBoth o, .ok locked⟩, ⟨.fundExists o.fund, exists_⟩] ∧ r = .error e := by
  unfold lockSource at h
  rcases Service.runs_ask_bind.mp h with ⟨e, rfl, rfl⟩ | ⟨locked, ys, rfl, hfound⟩
  · exact Or.inl ⟨e, rfl, rfl⟩
  · refine Or.inr ⟨locked, ?_⟩
    rw [sourceOf]
    split at hfound
    case h_1 source hsource =>
      obtain ⟨rfl, rfl⟩ := Service.runs_pure.mp hfound
      exact Or.inl ⟨source, hsource, rfl, rfl⟩
    case h_2 hsource =>
      refine Or.inr ⟨hsource, ?_⟩
      rcases Service.runs_ask_bind.mp hfound with ⟨e, rfl, rfl⟩ | ⟨there, zs, rfl, hthere⟩
      · exact ⟨.error e, .store e, .fails e, rfl, rfl⟩
      · cases there with
        | true =>
          obtain ⟨rfl, rfl⟩ := Service.runs_throw.mp hthere
          exact ⟨.ok true, _, .owner, rfl, rfl⟩
        | false =>
          obtain ⟨rfl, rfl⟩ := Service.runs_throw.mp hthere
          exact ⟨.ok false, _, .fund, rfl, rfl⟩

theorem runs_moveUnits {r : Except LedgerError Transfer} (h : Runs (moveUnits o source).run xs r) :
    (source.units < o.units ∧ xs = [] ∧ r = .error (.insufficientUnits source.units o.units)) ∨
      (o.units ≤ source.units ∧ Writing o source xs r) := by
  unfold moveUnits at h
  by_cases hfew : source.units < o.units
  · simp only [if_pos hfew] at h
    rcases Service.runs_bind.mp h with ⟨e, hthrow, rfl⟩ | ⟨ys, a, zs, rfl, hthrow, -⟩
    · obtain ⟨rfl, he⟩ := Service.runs_throw.mp hthrow
      cases he
      exact Or.inl ⟨hfew, rfl, rfl⟩
    · obtain ⟨-, ha⟩ := Service.runs_throw.mp hthrow
      cases ha
  · simp only [if_neg hfew] at h
    refine Or.inr ⟨by omega, ?_⟩
    rcases Service.runs_ask_bind.mp h with ⟨e, rfl, rfl⟩ | ⟨_, xs, rfl, hcredit⟩
    · exact .debit e
    rcases Service.runs_ask_bind.mp hcredit with ⟨e, rfl, rfl⟩ | ⟨_, xs, rfl, happend⟩
    · exact .credit e
    rcases Service.runs_ask_bind.mp happend with ⟨e, rfl, rfl⟩ | ⟨record, xs, rfl, hdone⟩
    · exact .append e
    obtain ⟨rfl, rfl⟩ := Service.runs_report_pure.mp hdone
    exact .done record

theorem runs_moved {r : Except LedgerError Applied}
    (h : Runs (do return Applied.moved (← moveUnits o source) : Service Applied).run xs r) :
    ∃ moved, Runs (moveUnits o source).run xs moved ∧ r = moved.map .moved := by
  rcases Service.runs_bind.mp h with ⟨e, hfails, rfl⟩ | ⟨ys, record, zs, rfl, hmove, hdone⟩
  · exact ⟨.error e, hfails, rfl⟩
  · obtain ⟨rfl, rfl⟩ := Service.runs_pure.mp hdone
    exact ⟨.ok record, by rwa [List.append_nil], rfl⟩

/-- By the order of the program: the look-up, the locks, and then what the locked entries decide. -/
theorem runs_applyTransfer {r : Except LedgerError Applied} (h : Runs (applyTransfer o).run xs r) :
    Work o xs r := by
  unfold applyTransfer at h
  rcases Service.runs_bind.mp h with ⟨e, hfind, rfl⟩ | ⟨pre, found, rest, rfl, hfind, hrest⟩
  · rcases runs_findReplay hfind with ⟨-, he⟩ | ⟨k, hkey, ⟨e, rfl, he⟩ | ⟨record, rfl, he | he⟩⟩
    · cases he
    · cases he
      exact .lookupFails hkey e
    · cases he
    · cases he
      exact .replays hkey record (Or.inr rfl)
  · rcases runs_findReplay hfind with
      ⟨fresh, hfound⟩ | ⟨k, hkey, ⟨e, -, hfound⟩ | ⟨record, rfl, hfound | hfound⟩⟩
    · cases hfound
      rcases Service.runs_bind.mp hrest with ⟨e, hlock, rfl⟩ | ⟨ys, source, zs, rfl, hlock, hmove⟩
      · rcases runs_lockSource hlock with
          ⟨e, rfl, he⟩ | ⟨locked, ⟨source, -, -, he⟩ | ⟨hnone, exists_, e, hanswer, rfl, he⟩⟩
        · cases he
          exact .lockFails fresh e
        · cases he
        · cases he
          exact .missing fresh hnone hanswer
      · obtain ⟨moved, hmoved, rfl⟩ := runs_moved hmove
        rcases runs_lockSource hlock with
          ⟨e, -, he⟩ | ⟨locked, ⟨source, hsource, rfl, he⟩ | ⟨-, exists_, e, -, -, he⟩⟩
        · cases he
        · cases he
          rcases runs_moveUnits hmoved with ⟨hfew, rfl, rfl⟩ | ⟨henough, hwriting⟩
          · exact .short fresh hsource hfew
          · exact .writes fresh hsource henough hwriting
        · cases he
    · cases hfound
    · cases hfound
      obtain ⟨rfl, rfl⟩ := Service.runs_pure.mp hrest
      rw [List.append_nil]
      exact .replays hkey record (Or.inl rfl)
    · cases hfound

/-! ## From the ways to the protocol -/

theorem Fresh.ops (h : Fresh o xs) : xs.map (·.op) = lookUps o := by
  cases h with
  | keyless none => simp [lookUps, none]
  | unknown given => simp [lookUps, given]

theorem Fresh.succeeds (h : Fresh o xs) : ∀ x ∈ xs, x.error? = none := by
  cases h with
  | keyless none => simp
  | unknown given => simp [Exchange.error?]

/-- A key that is looked up and known is looked up in the only exchange. -/
theorem Fresh.not_known (h : Fresh o xs) (k : Uuid) (record : Transfer) :
    ⟨.findByKey k, .ok (some record)⟩ ∉ xs := by
  intro hmem
  cases h with
  | keyless none => cases hmem
  | unknown given => cases List.mem_singleton.mp hmem

theorem Writing.order {r : Except LedgerError Transfer} (h : Writing o source xs r) :
    xs.map (·.op) <+: moveOps o source := by
  cases h <;> simp [moveOps]

theorem Writing.onward {r : Except LedgerError Transfer} (h : Writing o source xs r) :
    xs ≠ [] ∧ ∀ x ∈ xs.dropLast, x.error? = none := by
  cases h <;> simp [Exchange.error?]

theorem Writing.lasts {r : Except LedgerError Transfer} (h : Writing o source xs r) :
    ∃ x, xs.getLast? = some x ∧
      ((∃ e, x.error? = some e ∧ r = .error (.store e)) ∨
        ∃ record, x = ⟨.append o, .ok record⟩ ∧ r = .ok record) := by
  cases h with
  | debit e | credit e | append e => exact ⟨_, rfl, Or.inl ⟨e, rfl, rfl⟩⟩
  | done record => exact ⟨_, rfl, Or.inr ⟨record, rfl, rfl⟩⟩

section Work

variable {r : Except LedgerError Applied}

theorem Work.order (h : Work o work r) :
    (∃ source, work.map (·.op) <+: lookUps o ++ lockBoth o :: moveOps o source) ∨
      work.map (·.op) <+: lookUps o ++ [lockBoth o, .fundExists o.fund] := by
  cases h with
  | lookupFails given | replays given => exact Or.inr (by simp [lookUps, given])
  | lockFails fresh | short fresh =>
    refine Or.inr ?_
    rw [List.map_append, fresh.ops, List.prefix_append_right_inj]
    exact List.prefix_append [lockBoth o] [.fundExists o.fund]
  | missing fresh =>
    refine Or.inr ?_
    rw [List.map_append, fresh.ops]
    exact List.prefix_refl _
  | @writes pre locked source xs r fresh found enough writing =>
    refine Or.inl ⟨source, ?_⟩
    rw [List.map_append, fresh.ops, List.prefix_append_right_inj]
    exact List.cons_prefix_cons.mpr ⟨rfl, writing.order⟩

theorem Work.onward (h : Work o work r) : ∀ x ∈ work.dropLast, x.error? = none := by
  have hlock : ∀ {pre locked xs}, Fresh o pre → (∀ x ∈ xs, x.error? = none) →
      ∀ x ∈ pre ++ ⟨lockBoth o, .ok locked⟩ :: xs, x.error? = none := by
    intro pre locked xs fresh hxs x hx
    rcases List.mem_append.mp hx with hx | hx
    · exact fresh.succeeds x hx
    · rcases List.mem_cons.mp hx with rfl | hx
      · rfl
      · exact hxs x hx
  cases h with
  | lookupFails | replays => simp
  | lockFails fresh | short fresh =>
    rw [List.dropLast_concat]
    exact fresh.succeeds
  | @missing pre locked exists_ e fresh =>
    have hlast : pre ++ [⟨lockBoth o, .ok locked⟩, ⟨.fundExists o.fund, exists_⟩] =
        (pre ++ [⟨lockBoth o, .ok locked⟩]) ++ [⟨.fundExists o.fund, exists_⟩] := by simp
    rw [hlast, List.dropLast_concat]
    exact hlock fresh (by simp)
  | @writes pre locked source xs r fresh found enough writing =>
    obtain ⟨hne, honward⟩ := writing.onward
    rw [List.dropLast_append_of_ne_nil (by simp), List.dropLast_cons_of_ne_nil hne]
    exact hlock fresh honward

/-- Every operation of the work is the look-up, the locking, the question after the fund, or a write of
the source that was locked. -/
theorem Work.op_cases (h : Work o work r) {op : Op} (hop : op ∈ work.map (·.op)) :
    (∃ k, op = .findByKey k ∧ o.key = some k) ∨ op = lockBoth o ∨
      (op = .fundExists o.fund ∧ ∃ locked, ⟨lockBoth o, .ok locked⟩ ∈ work ∧
        sourceOf o locked = none) ∨
      ∃ locked source, op ∈ moveOps o source ∧ ⟨lockBoth o, .ok locked⟩ ∈ work ∧
        sourceOf o locked = some source ∧ o.units ≤ source.units := by
  have hpre : ∀ {pre rest : List Exchange}, Fresh o pre → op ∈ (pre ++ rest).map (·.op) →
      (∃ k, op = .findByKey k ∧ o.key = some k) ∨ op ∈ rest.map (·.op) := by
    intro pre rest fresh hmem
    rw [List.map_append, fresh.ops] at hmem
    rcases List.mem_append.mp hmem with hmem | hmem
    · obtain ⟨k, hk, rfl⟩ := List.mem_map.mp hmem
      exact Or.inl ⟨k, rfl, Option.mem_toList.mp hk⟩
    · exact Or.inr hmem
  cases h with
  | lookupFails given | replays given => exact Or.inl ⟨_, List.mem_singleton.mp hop, given⟩
  | lockFails fresh | short fresh =>
    exact (hpre fresh hop).imp_right fun hop => Or.inl (List.mem_singleton.mp hop)
  | missing fresh none =>
    refine (hpre fresh hop).imp_right fun hop => ?_
    rcases List.mem_cons.mp hop with rfl | hop
    · exact Or.inl rfl
    · exact Or.inr (Or.inl ⟨List.mem_singleton.mp hop, _, by simp, none⟩)
  | writes fresh found enough writing =>
    refine (hpre fresh hop).imp_right fun hop => ?_
    rcases List.mem_cons.mp hop with rfl | hop
    · exact Or.inl rfl
    · exact Or.inr (Or.inr ⟨_, _, writing.order.subset hop, by simp, found, enough⟩)

theorem Work.known (h : Work o work r) (k : Uuid) (record : Transfer)
    (hmem : ⟨.findByKey k, .ok (some record)⟩ ∈ work) : work.length = 1 := by
  have hpre : ∀ {pre rest : List Exchange}, Fresh o pre → work = pre ++ rest →
      .findByKey k ∈ rest.map (·.op) := by
    rintro pre rest fresh rfl
    rcases List.mem_append.mp hmem with hmem | hmem
    · exact absurd hmem (fresh.not_known k record)
    · exact List.mem_map_of_mem hmem
  cases h with
  | lookupFails | replays => rfl
  | lockFails fresh | short fresh =>
    cases List.mem_singleton.mp (hpre fresh rfl)
  | missing fresh =>
    have hop := hpre fresh rfl
    simp [lockBoth] at hop
  | writes fresh found enough writing =>
    have hop := hpre fresh rfl
    rcases List.mem_cons.mp hop with hop | hop
    · cases hop
    · have := writing.order.subset hop
      simp [moveOps] at this

theorem Work.absent (h : Work o work r) (hop : .fundExists o.fund ∈ work.map (·.op)) :
    ∃ locked : List Entry, ⟨lockBoth o, .ok locked⟩ ∈ work ∧ ∀ e ∈ locked, e.owner ≠ o.source := by
  rcases h.op_cases hop with ⟨k, hk, -⟩ | hlock | ⟨-, locked, hmem, hnone⟩ | ⟨locked, source, hmove, -⟩
  · cases hk
  · cases hlock
  · exact ⟨locked, hmem, fun e he => by simpa using List.find?_eq_none.mp hnone e he⟩
  · simp [moveOps] at hmove

theorem Work.covered (h : Work o work r) (id : Uuid) (units : Int)
    (hop : .debit id units ∈ work.map (·.op)) :
    ∃ locked source, ⟨lockBoth o, .ok locked⟩ ∈ work ∧ sourceOf o locked = some source ∧
      id = source.id ∧ units = o.units ∧ o.units ≤ source.units := by
  rcases h.op_cases hop with ⟨k, hk, -⟩ | hlock | ⟨hfund, -⟩ | ⟨locked, source, hmove, hmem, hfound, henough⟩
  · cases hk
  · cases hlock
  · cases hfund
  · simp only [moveOps, List.mem_cons, Op.debit.injEq, reduceCtorEq, List.not_mem_nil, or_false] at hmove
    exact ⟨locked, source, hmem, hfound, hmove.1, hmove.2, henough⟩

/-- How the work ends: in a failure, in an answer that decides against the transfer, or in its record. -/
theorem Work.lasts (h : Work o work r) : ∃ x, work.getLast? = some x ∧
    ((∃ record, x = ⟨.append o, .ok record⟩ ∧ r = .ok (.moved record)) ∨
      ((∀ record, r ≠ .ok (.moved record)) ∧ (∀ e, r = .error (.store e) → x.error? = some e) ∧
        (x.error? ≠ none ∨ (∃ k record, x = ⟨.findByKey k, .ok (some record)⟩) ∨
          x.op = .fundExists o.fund ∨
          ∃ locked source, x = ⟨lockBoth o, .ok locked⟩ ∧ sourceOf o locked = some source ∧
            source.units < o.units))) := by
  cases h with
  | lookupFails given e =>
    refine ⟨_, rfl, Or.inr ⟨nofun, fun e' he => ?_, Or.inl nofun⟩⟩
    cases he
    rfl
  | replays given record answer =>
    refine ⟨_, rfl, Or.inr ⟨?_, ?_, Or.inr (Or.inl ⟨_, record, rfl⟩)⟩⟩
    · rcases answer with rfl | rfl <;> nofun
    · rcases answer with rfl | rfl <;> nofun
  | lockFails fresh e =>
    refine ⟨_, List.getLast?_concat, Or.inr ⟨nofun, fun e' he => ?_, Or.inl nofun⟩⟩
    cases he
    rfl
  | missing fresh none answer =>
    refine ⟨⟨.fundExists o.fund, _⟩, by rw [List.getLast?_append]; rfl,
      Or.inr ⟨nofun, fun e' he => ?_, Or.inr (Or.inr (Or.inl rfl))⟩⟩
    cases answer with
    | fails e =>
      cases he
      rfl
    | owner | fund => cases he
  | short fresh found few =>
    exact ⟨_, List.getLast?_concat, Or.inr ⟨nofun, nofun,
      Or.inr (Or.inr (Or.inr ⟨_, _, rfl, found, few⟩))⟩⟩
  | @writes pre locked source xs r fresh found enough writing =>
    obtain ⟨x, hlast, hcases⟩ := writing.lasts
    refine ⟨x, by rw [List.getLast?_append, List.getLast?_cons, hlast]; rfl, ?_⟩
    rcases hcases with ⟨e, hx, rfl⟩ | ⟨record, rfl, rfl⟩
    · refine Or.inr ⟨nofun, fun e' he => ?_, Or.inl (by simp [hx])⟩
      cases he
      exact hx
    · exact Or.inl ⟨record, rfl, rfl⟩

end Work

/-- An error of the store that the work comes to was answered to one of its operations. -/
theorem Work.failed {e : StoreError} (h : Work o work (.error (.store e))) :
    ∃ x ∈ work, x.op ≠ .rollback ∧ x.error? = some e := by
  obtain ⟨x, hlast, ⟨record, -, hmoved⟩ | ⟨-, herror, -⟩⟩ := h.lasts
  · cases hmoved
  · have hx : x ∈ work := List.mem_of_getLast? hlast
    refine ⟨x, hx, fun hop => ?_, herror e rfl⟩
    have hmem := List.mem_map_of_mem (f := (·.op)) hx
    rw [hop] at hmem
    rcases h.op_cases hmem with ⟨k, hk, -⟩ | hlock | ⟨hfund, -⟩ | ⟨locked, source, hmove, -⟩
    · cases hk
    · cases hlock
    · cases hfund
    · simp [moveOps] at hmove

/-- Work that is committed has made all its writes. -/
theorem Work.committed {record : Transfer} (h : Work o work (.ok (.moved record)))
    (ended : Op.commit.Answer) : TransferTransaction o work ⟨.commit, ended⟩ := by
  refine ⟨h.order, h.onward, h.known, h.absent, h.covered, Or.inl rfl, ⟨fun _ => ?_, fun _ => rfl⟩, nofun⟩
  obtain ⟨x, hlast, ⟨record, rfl, -⟩ | ⟨hnot, -⟩⟩ := h.lasts
  · exact ⟨record, hlast⟩
  · exact absurd rfl (hnot record)

/-- Work that came to anything else is given up for a reason. -/
theorem Work.given_up {r : Except LedgerError Applied} (h : Work o work r)
    (hr : ∀ record, r ≠ .ok (.moved record)) (ended : Op.rollback.Answer) :
    TransferTransaction o work ⟨.rollback, ended⟩ := by
  obtain ⟨x, hlast, ⟨record, -, hmoved⟩ | ⟨-, -, hreason⟩⟩ := h.lasts
  · exact absurd hmoved (hr record)
  · refine ⟨h.order, h.onward, h.known, h.absent, h.covered, Or.inr rfl, ⟨nofun, ?_⟩,
      fun _ => ⟨x, hlast, hreason⟩⟩
    rintro ⟨record, happend⟩
    obtain rfl := Option.some.inj (hlast.symm.trans happend)
    rcases hreason with hfails | ⟨k, t, hknown⟩ | hfund | ⟨locked, source, hlock, -⟩
    · exact absurd rfl hfails
    · cases hknown
    · cases hfund
    · cases hlock

/-! ## The whole transfer -/

theorem runs_rollback {u : Unit} (h : Runs rollback xs u) : ∃ ended, xs = [⟨.rollback, ended⟩] := by
  unfold rollback at h
  obtain ⟨ys, ended, zs, rfl, hask, hrest⟩ := Program.runs_bind.mp h
  obtain rfl := Program.runs_ask.mp hask
  cases ended with
  | ok reply =>
    obtain ⟨rfl, -⟩ := Program.runs_pure.mp hrest
    exact ⟨.ok reply, rfl⟩
  | error e =>
    obtain rfl := Program.runs_report.mp hrest
    exact ⟨.error e, rfl⟩

/-- A failed transaction is followed by another one only if its key may have been taken meanwhile. -/
theorem runs_settleFailure {e : LedgerError} {r : Except LedgerError Transfer}
    (h : Runs (settleFailure o e).run xs r) :
    xs = [] ∨ ∃ k, o.key = some k ∧ e = .store (.uniqueViolation Constraint.idempotencyKey) ∧
      SecondLook k xs := by
  unfold settleFailure at h
  split at h
  · obtain ⟨rfl, -⟩ := Service.runs_report_throw.mp h
    exact Or.inl rfl
  · rename_i k hrace
    have hkey : o.key = some k ∧ e = .store (.uniqueViolation Constraint.idempotencyKey) := by
      unfold raceKey? at hrace
      split at hrace
      · rename_i err
        split at hrace
        · rename_i hviolates
          exact ⟨hrace, congrArg _ (beq_iff_eq.mp hviolates)⟩
        · cases hrace
      · cases hrace
    refine Or.inr ⟨k, hkey.1, hkey.2, ?_⟩
    rcases Service.runs_ask_bind.mp h with ⟨e, rfl, -⟩ | ⟨_, ys, rfl, hlook⟩
    · exact .refused e
    obtain ⟨found, zs, rfl, hend⟩ := Service.runs_attempt_bind.mp hlook
    obtain ⟨us, _, vs, rfl, hrollback, hverdict⟩ := Service.runs_lift_bind.mp hend
    obtain ⟨ended, rfl⟩ := runs_rollback hrollback
    suffices hvs : vs = [] by
      subst hvs
      exact .looks found ended
    cases found with
    | error e => exact (Service.runs_throw.mp hverdict).1
    | ok found =>
      dsimp only at hverdict
      split at hverdict
      · exact (Service.runs_report_pure.mp hverdict).1
      · exact (Service.runs_report_throw.mp hverdict).1
      · exact (Service.runs_report_throw.mp hverdict).1

theorem transaction_append (work xs : List Exchange) (last : Exchange) :
    ⟨.openTx, .ok ()⟩ :: (work ++ last :: xs) = transaction work last ++ xs := by
  simp [transaction]

/-- A failed transaction of a transfer, and what follows it. -/
theorem protocol_of_settled {e : LedgerError} {r : Except LedgerError Transfer}
    (first : TransferTransaction o work last)
    (failed : e = .store (.uniqueViolation Constraint.idempotencyKey) → ∃ x ∈ work ++ [last],
      x.op ≠ .rollback ∧ x.error? = some (.uniqueViolation Constraint.idempotencyKey))
    (h : Runs (settleFailure o e).run xs r) : TransferProtocol o (transaction work last ++ xs) := by
  rcases runs_settleFailure h with rfl | ⟨k, given, he, second⟩
  · rw [List.append_nil]
    exact .once first
  · exact .again first given (failed he) second

theorem runs_executeTransfer {request : TransferRequest} {r : Except LedgerError Transfer}
    (h : Runs (executeTransfer request).run xs r) :
    (∀ e, request.validate = .error e → xs = [] ∧ r = .error e) ∧
      ∀ o, request.validate = .ok o → TransferProtocol o xs := by
  unfold executeTransfer at h
  cases hvalid : request.validate with
  | error e =>
    rw [hvalid] at h
    rcases Service.runs_bind.mp h with ⟨e', hrun, rfl⟩ | ⟨ys, o, zs, -, hrun, -⟩
    · obtain ⟨rfl, he⟩ := Service.runs_lift_except.mp hrun
      cases he
      exact ⟨fun e he => ⟨rfl, by rw [Except.error.inj he]⟩, nofun⟩
    · cases (Service.runs_lift_except.mp hrun).2
  | ok o =>
    rw [hvalid] at h
    refine ⟨nofun, fun o' ho => ?_⟩
    obtain rfl := Except.ok.inj ho
    rcases Service.runs_bind.mp h with ⟨e', hrun, -⟩ | ⟨ys, o', zs, rfl, hrun, hopen⟩
    · cases (Service.runs_lift_except.mp hrun).2
    obtain ⟨rfl, ho'⟩ := Service.runs_lift_except.mp hrun
    obtain rfl := Except.ok.inj ho'
    rw [List.nil_append]
    rcases Service.runs_ask_bind.mp hopen with ⟨e, rfl, -⟩ | ⟨_, zs, rfl, happly⟩
    · exact .refused e
    obtain ⟨work, outcome, rest, rfl, hwork, hend⟩ := Service.runs_lift_bind.mp happly
    have hwork := runs_applyTransfer hwork
    -- The work fails, or it comes to a new record or to an earlier one.
    rcases outcome with e | ⟨record | existing⟩
    · obtain ⟨us, _, vs, rfl, hrollback, hsettle⟩ := Service.runs_lift_bind.mp hend
      obtain ⟨ended, rfl⟩ := runs_rollback hrollback
      rw [List.singleton_append, transaction_append]
      refine protocol_of_settled (hwork.given_up nofun ended) (fun he => ?_) hsettle
      subst he
      obtain ⟨x, hx, hrest⟩ := hwork.failed
      exact ⟨x, List.mem_append_left _ hx, hrest⟩
    · obtain ⟨ended, vs, rfl, hverdict⟩ := Service.runs_attempt_bind.mp hend
      cases ended with
      | ok reply =>
        obtain ⟨rfl, -⟩ := Service.runs_report_pure.mp hverdict
        exact .once (hwork.committed (.ok reply))
      | error e =>
        rw [transaction_append]
        refine protocol_of_settled (hwork.committed (.error e)) (fun he => ?_) hverdict
        exact ⟨⟨.commit, .error e⟩, by simp, nofun, congrArg some (LedgerError.store.inj he)⟩
    · obtain ⟨us, _, vs, rfl, hrollback, hdone⟩ := Service.runs_lift_bind.mp hend
      obtain ⟨ended, rfl⟩ := runs_rollback hrollback
      obtain ⟨rfl, -⟩ := Service.runs_report_pure.mp hdone
      rw [List.append_nil]
      exact .once (hwork.given_up nofun ended)

/-! ## The whole creation -/

section Fund

variable {f : Fund} {e : Entry}

theorem runs_giveUp {err : StoreError} {r : Except StoreError Unit}
    (h : Runs (do rollback; return .error err : Program (Except StoreError Unit)) xs r) :
    ∃ ended, xs = [⟨.rollback, ended⟩] := by
  obtain ⟨ys, _, zs, rfl, hrollback, hdone⟩ := Program.runs_bind.mp h
  obtain ⟨ended, rfl⟩ := runs_rollback hrollback
  obtain ⟨rfl, -⟩ := Program.runs_pure.mp hdone
  exact ⟨ended, List.append_nil _⟩

theorem runs_writeFund {r : Except StoreError Unit} (h : Runs (writeFund f e) xs r) :
    ∃ work last, xs = work ++ [last] ∧ FundTransaction f e work last := by
  unfold writeFund at h
  obtain ⟨ys, first, zs, rfl, hfirst, hrest⟩ := Program.runs_bind.mp h
  obtain rfl := Program.runs_ask.mp hfirst
  -- The first write that fails is the last one that is asked for.
  cases first with
  | error err =>
    obtain ⟨ended, rfl⟩ := runs_giveUp hrest
    exact ⟨[⟨.createFund f, .error err⟩], _, rfl, by simp, by simp, Or.inr rfl, by simp,
      fun _ => ⟨_, rfl, by simp [Exchange.error?]⟩⟩
  | ok reply =>
    obtain ⟨us, second, vs, rfl, hsecond, hend⟩ := Program.runs_bind.mp hrest
    obtain rfl := Program.runs_ask.mp hsecond
    cases second with
    | error err =>
      obtain ⟨ended, rfl⟩ := runs_giveUp hend
      exact ⟨[⟨.createFund f, .ok reply⟩, ⟨.createEntry e, .error err⟩], _, rfl, by simp,
        by simp [Exchange.error?], Or.inr rfl, by simp [Exchange.error?],
        fun _ => ⟨_, rfl, by simp [Exchange.error?]⟩⟩
    | ok reply' =>
      obtain rfl := Program.runs_ask.mp hend
      exact ⟨[⟨.createFund f, .ok reply⟩, ⟨.createEntry e, .ok reply'⟩], _, rfl, by simp,
        by simp [Exchange.error?], Or.inl rfl, by simp [Exchange.error?], nofun⟩

/-- The creation of two rows that are valid. -/
theorem runs_checkedFund {r : Except LedgerError Fund}
    (h : Runs (do
      Service.ask .openTx
      match ← ExceptT.lift (writeFund f e) with
      | .ok () =>
        Service.report (fundCreated f e)
        return f
      | .error err =>
        if err.violates Constraint.fundName then
          Service.report (fundNameTaken f)
          throw (.duplicateFundName f.name)
        else
          Service.report (fundFailed f err)
          throw (.store err) : Service Fund).run xs r) : FundProtocol f e xs := by
  rcases Service.runs_ask_bind.mp h with ⟨err, rfl, -⟩ | ⟨_, ys, rfl, hwrite⟩
  · exact .refused err
  obtain ⟨us, written, vs, rfl, hus, hverdict⟩ := Service.runs_lift_bind.mp hwrite
  obtain ⟨work, last, rfl, only⟩ := runs_writeFund hus
  suffices hvs : vs = [] by
    subst hvs
    rw [List.append_nil]
    exact .once only
  cases written with
  | ok reply => exact (Service.runs_report_pure.mp hverdict).1
  | error err =>
    dsimp only at hverdict
    split at hverdict
    · exact (Service.runs_report_throw.mp hverdict).1
    · exact (Service.runs_report_throw.mp hverdict).1

theorem runs_createFund {fundId entryId : Uuid} {now : Instant} {name owner : String}
    {totalUnits : Int} {r : Except LedgerError Fund}
    (h : Runs (createFund fundId entryId now name totalUnits owner).run xs r) :
    (∀ err, checkedFund fundId entryId now name totalUnits owner = .error err →
      xs = [] ∧ r = .error err) ∧
    ∀ f e, checkedFund fundId entryId now name totalUnits owner = .ok (f, e) → FundProtocol f e xs := by
  have hlifted : ∀ {α : Type} {x : Except LedgerError α} {g : α → Service Fund},
      Runs (liftM x >>= g : Service Fund).run xs r →
      (∀ err, x = .error err → xs = [] ∧ r = .error err) ∧ ∀ a, x = .ok a → Runs (g a).run xs r := by
    intro α x g hrun
    rcases Service.runs_bind.mp hrun with ⟨err, hx, rfl⟩ | ⟨ys, a, zs, rfl, hx, hg⟩
    · obtain ⟨rfl, rfl⟩ := Service.runs_lift_except.mp hx
      exact ⟨fun err' herr => ⟨rfl, by rw [Except.error.inj herr]⟩, nofun⟩
    · obtain ⟨rfl, rfl⟩ := Service.runs_lift_except.mp hx
      refine ⟨nofun, fun a' ha => ?_⟩
      rw [← Except.ok.inj ha]
      exact hg
  unfold createFund at h
  obtain ⟨hnoFund, hentry⟩ := hlifted h
  cases hf : Fund.create fundId now name totalUnits with
  | error err =>
    have hchecked : checkedFund fundId entryId now name totalUnits owner = .error err := by
      rw [checkedFund, hf]
      rfl
    rw [hchecked]
    exact ⟨fun err' herr => hnoFund err' (hf.trans (Except.error.inj herr ▸ rfl)), nofun⟩
  | ok f =>
    obtain ⟨hnoEntry, hwrite⟩ := hlifted (hentry f hf)
    cases he : Entry.create entryId now f.id owner totalUnits with
    | error err =>
      have hchecked : checkedFund fundId entryId now name totalUnits owner = .error err := by
        rw [checkedFund, hf]
        exact congrArg (· >>= fun e => pure (f, e)) he
      rw [hchecked]
      exact ⟨fun err' herr => hnoEntry err' (he.trans (Except.error.inj herr ▸ rfl)), nofun⟩
    | ok e =>
      have hchecked : checkedFund fundId entryId now name totalUnits owner = .ok (f, e) := by
        rw [checkedFund, hf]
        exact congrArg (· >>= fun e => pure (f, e)) he
      rw [hchecked]
      refine ⟨nofun, fun f' e' hrows => ?_⟩
      cases hrows
      exact runs_checkedFund (hwrite e he)

end Fund

/-! ## With every store -/

/-- With every store, a transfer and the creation of a fund keep to their protocol, and ask nothing for
a request that is not valid. The ledger store on a database is one of the stores, whatever its server
replies. -/
theorem services_follow_protocol :
    (∀ (b : Backend) (s : b.State) (request : TransferRequest),
      let program := (executeTransfer request).run
      (∀ e, request.validate = .error e →
        program.exchanges b s = [] ∧ (program.outcome b s).2 = .error e) ∧
      ∀ o, request.validate = .ok o → TransferProtocol o (program.exchanges b s)) ∧
    (∀ (b : Backend) (s : b.State) fundId entryId now name totalUnits owner,
      let program := (createFund fundId entryId now name totalUnits owner).run
      let checked := checkedFund fundId entryId now name totalUnits owner
      (∀ err, checked = .error err →
        program.exchanges b s = [] ∧ (program.outcome b s).2 = .error err) ∧
      ∀ f e, checked = .ok (f, e) → FundProtocol f e (program.exchanges b s)) ∧
    ∀ (server : Sql.Server) (patience : Nat) (s : server.State),
      (∀ request, (Sql.ofProgram patience (executeTransfer request).run).outcome server s =
        (executeTransfer request).run.outcome (server.backend patience) s) ∧
      ∀ fundId entryId now name totalUnits owner,
        (Sql.ofProgram patience
          (createFund fundId entryId now name totalUnits owner).run).outcome server s =
        (createFund fundId entryId now name totalUnits owner).run.outcome (server.backend patience) s := by
  refine ⟨fun b s request => ?_, fun b s fundId entryId now name totalUnits owner => ?_,
    fun server patience s => ⟨fun request => ?_, fun fundId entryId now name totalUnits owner => ?_⟩⟩
  · exact runs_executeTransfer (Program.runs_exchanges b _ s)
  · exact runs_createFund (Program.runs_exchanges b _ s)
  · exact Sql.ofProgram_outcome server patience _ s
  · exact Sql.ofProgram_outcome server patience _ s

/-! ## A lost race -/

def adasEntry : Entry :=
  { id := Uuid.ofNat 2, fund := Uuid.ofNat 1, owner := "Ada", units := 12, acquiredAt := ⟨0⟩,
    updatedAt := ⟨0⟩, state := .active }

def keyedRequest : TransferRequest :=
  { fund := Uuid.ofNat 1, source := " Ada ", target := "Ben", units := 3, key := some (Uuid.ofNat 9) }

/-- A store that knows no record, refuses to append one because its key is taken, creates no
entry, and fails to roll back. -/
def lostRace : Backend where
  State := Unit
  answer s
    | .openTx => (s, .ok ())
    | .createFund _ => (s, .ok ())
    | .findByKey _ => (s, .ok none)
    | .lockEntries _ _ => (s, .ok [adasEntry])
    | .debit _ _ => (s, .ok ())
    | .credit _ _ _ => (s, .ok ())
    | .append _ => (s, .error (.uniqueViolation Constraint.idempotencyKey))
    | _ => (s, .error .lockTimeout)

/-- The transfer opens a second transaction, and looks the key up in it once. The creation of the fund is
given up after its entry was refused. -/
theorem lostRace_followed :
    let xs := (executeTransfer keyedRequest).run.exchanges lostRace ()
    let o : TransferOrder := ⟨Uuid.ofNat 1, "Ada", "Ben", 3, some (Uuid.ofNat 9)⟩
    let founding := createFund (Uuid.ofNat 1) (Uuid.ofNat 2) ⟨0⟩ " Hull" 12 "Ada "
    let ys := founding.run.exchanges lostRace ()
    let f : Fund := { id := Uuid.ofNat 1, name := "Hull", totalUnits := 12, createdAt := ⟨0⟩ }
    (xs.map (·.op) = .openTx :: lookUps o ++ lockBoth o :: moveOps o adasEntry ++ [.rollback] ++
        [.openTx, .findByKey (Uuid.ofNat 9), .rollback] ∧
      TransferProtocol o xs) ∧
    ys.map (·.op) = [.openTx, .createFund f, .createEntry adasEntry, .rollback] ∧
      FundProtocol f adasEntry ys := by
  intro xs o founding ys f
  have hvalid : keyedRequest.validate = .ok o := by rfl
  have hrows : checkedFund (Uuid.ofNat 1) (Uuid.ofNat 2) ⟨0⟩ " Hull" 12 "Ada " =
      .ok (f, adasEntry) := by rfl
  obtain ⟨htransfers, hcreations, -⟩ := services_follow_protocol
  exact ⟨⟨by decide +kernel, (htransfers lostRace () keyedRequest).2 o hvalid⟩, by decide +kernel,
    (hcreations lostRace () _ _ _ _ _ _).2 f adasEntry hrows⟩

end UnitLedger.Service
