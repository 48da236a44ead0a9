import UnitLedger.Proofs.Memory.Balances
import UnitLedger.Proofs.Transactions.Frame

/-!
  UnitLedger.Proofs.Transactions.Transferring — transactions that move units.

  A transaction of transfers debits rows that it has locked, credits owners, and records what it moved;
  it creates no row in any other way, and nobody resets the store (`State.transferring`). Any number of
  them may run at once, with any locks, reads, commits, rollbacks and drops in any order.

  `Settling` is what such runs keep. Whoever has debited a row leads its line. Whoever has credited an
  owner leads the line of the owner's row, or credited at a moment when the owner had none (`Blind`):
  whether a credit takes the row's lock is decided when it is journaled, by the rows of that moment.
-/

namespace UnitLedger.Transactions

open Concurrent (DistinctIds)
open Memory (Party World Journal Write RowLocks Tables)

variable {s s' : State} {acts : List Act} {a : Act} {p q : Party} {now : Instant} {size : Nat}

/-! ## Runs of transfers -/

namespace State

def transfers (s : State) : Act → Bool
  | .ask p (.debit row _) _ => s.world.locks.holds p row
  | .ask _ (.createFund _) _ | .ask _ (.createEntry _) _ | .dropRows | .dropLocks => false
  | .ask _ _ _ | .goOn _ | .giveUp _ | .drop _ => true

def transferring (s : State) : List Act → Bool
  | [] => true
  | a :: acts => s.transfers a && (s.step a).transferring acts

theorem transferring_append (s : State) (acts acts' : List Act) :
    s.transferring (acts ++ acts') = (s.transferring acts && (s.run acts).transferring acts') := by
  induction acts generalizing s with
  | nil => rfl
  | cons a acts ih => simp only [List.cons_append, transferring, ih, run_cons, Bool.and_assoc]

theorem transfers_of_transferring {rest : List Act}
    (h : s.transferring (acts ++ a :: rest) = true) : (s.run acts).transfers a = true := by
  rw [transferring_append, Bool.and_eq_true] at h
  exact (Bool.and_eq_true_iff.mp h.2).1

end State

/-- The supply gives different ids at its first `size` places, none of which an entry has. -/
structure NewIds (s : State) (size : Nat) : Prop where
  distinct : DistinctIds s.world.fresh size
  unused : ∀ n < size, s.world.fresh n ∉ s.world.tables.entryIds

/-! ## Credits without a lock -/

/-- The credit that stands after `done` in the party's journal was asked for at a moment when the owner
had no active entry, and it has stood there since. -/
def Blind (s : State) (acts : List Act) (p : Party) (done : Journal) (fund : Uuid) (owner : String)
    (units : Int) : Prop :=
  ∃ x now y, acts = x ++ .ask p (.credit fund owner units) now :: y ∧
    (s.run x).world.journal p = done ∧ (s.run x).world.tables.activeOf fund owner = none ∧
    ∀ u v, y = u ++ v → done ++ [.credit fund owner units] <+:
      (s.run (x ++ .ask p (.credit fund owner units) now :: u)).world.journal p

theorem Blind.later {done : Journal} {fund : Uuid} {owner : String} {units : Int}
    (h : Blind s acts p done fund owner units)
    (hstill : done ++ [.credit fund owner units] <+: (s.run (acts ++ [a])).world.journal p) :
    Blind s (acts ++ [a]) p done fund owner units := by
  obtain ⟨x, now, y, rfl, hjournal, hnone, hsince⟩ := h
  refine ⟨x, now, y ++ [a], by simp, hjournal, hnone, fun u v huv => ?_⟩
  rcases List.eq_nil_or_concat v with rfl | ⟨v, b, rfl⟩
  · rw [List.append_nil] at huv
    rw [← huv]
    simpa using hstill
  · rw [List.concat_eq_append, ← List.append_assoc] at huv
    exact hsince u v (List.append_inj' huv rfl).1

def Leads (s : State) (p : Party) (fund : Uuid) (owner : String) : Prop :=
  ∃ e, s.world.tables.activeOf fund owner = some e ∧ (s.world.locks.line e.id).head? = some p

structure Settling (s : State) (acts : List Act) : Prop where
  keyed : (s.run acts).world.tables.Keyed
  level : (s.run acts).world.locks.Level
  ids : ∀ id ∈ (s.run acts).world.tables.entryIds,
    id ∈ s.world.tables.entryIds ∨ ∃ n < (s.run acts).world.used, s.world.fresh n = id
  plain : ∀ p, ((s.run acts).world.journal p).Plain
  debits : ∀ p row units, Write.debit row units ∈ (s.run acts).world.journal p →
    ((s.run acts).world.locks.line row).head? = some p
  credits : ∀ p done rest fund owner units,
    (s.run acts).world.journal p = done ++ .credit fund owner units :: rest →
      Blind s acts p done fund owner units ∨ Leads (s.run acts) p fund owner
  waits : ∀ p fund owner units, (s.run acts).waiting p = some ⟨.credit fund owner units, ()⟩ →
    ∃ e, (s.run acts).world.tables.activeOf fund owner = some e ∧
      p ∈ (s.run acts).world.locks.line e.id

theorem settling_opened {fresh : Nat → Uuid} {tables : Tables} (keyed : tables.Keyed) :
    Settling (State.opened fresh tables) [] := by
  refine ⟨keyed, ⟨List.nodup_nil, fun l hl => by cases hl⟩, fun id hid => Or.inl hid, ?_, ?_, ?_, ?_⟩
  · intro p w hw
    cases hw
  · intro p row units hmem
    cases hmem
  · intro p done rest fund owner units hjournal
    have hlength := congrArg List.length hjournal
    simp [State.run, State.opened, World.journal] at hlength
  · intro p fund owner units hwaits
    cases hwaits

/-! ## What a step keeps -/

/-- What a step leaves of the lines: whoever has written something leads what it led, and whoever
waits stands where it stood. -/
structure Stands (s s' : State) : Prop where
  level : s'.world.locks.Level
  heads : ∀ q row, s'.world.journal q ≠ [] → (s.world.locks.line row).head? = some q →
    (s'.world.locks.line row).head? = some q
  waits : ∀ q row, s'.waiting q ≠ none → q ∈ s.world.locks.line row → q ∈ s'.world.locks.line row

theorem LockStep.stands (h : LockStep s a s') (level : s.world.locks.Level) (hreset : a ≠ .dropLocks) :
    Stands s s' := by
  cases h with
  | keeps locks => exact ⟨locks ▸ level, fun _ _ _ hq => locks ▸ hq, fun _ _ _ hq => locks ▸ hq⟩
  | asks p _ _ acquires =>
    have hasks := acquires.asks (level.sane _)
    exact ⟨level.acquires acquires, fun _ _ _ hq => hasks.head hq, fun _ _ _ hq => hasks.mem hq⟩
  | leaves p locks _ waiting =>
    have hacts := RowLocks.Acts.leave (p := p) (level.sane [])
    rw [← locks] at hacts
    refine ⟨locks ▸ level.leave, fun q row _ hq => ?_, fun q row hw hq =>
      (hacts.mem (waiting q hw).1).mpr hq⟩
    rw [locks, RowLocks.line_leave, hq]
    rfl
  | closes p _ locks journal _ waiting =>
    have hacts := RowLocks.Acts.close (p := p) (level.sane [])
    rw [← locks] at hacts
    refine ⟨locks ▸ level.leave.release, fun q row hj hq => ?_, fun q row hw hq =>
      (hacts.mem (waiting q hw).1).mpr hq⟩
    have hne : q ≠ p := by
      rintro rfl
      exact hj journal
    exact hacts.heads row q hne hq
  | clears act => exact absurd act hreset

/-- An id that the supply has yet to give is no entry's. -/
theorem Settling.new_id (h : Settling s acts) (new : NewIds s size) {n : Nat}
    (hused : (s.run acts).world.used ≤ n) (hn : n < size) :
    (s.run acts).world.fresh n ∉ (s.run acts).world.tables.entryIds := by
  intro hid
  rw [State.fresh_run] at hid
  rcases h.ids _ hid with hold | ⟨m, hm, heq⟩
  · exact new.unused n hn hold
  · have := new.distinct m (by omega) n hn heq
    omega

/-- What becomes of a commit: it is refused and changes nothing, or it changes the balances of the
active entries by what the journal moves, and the entries that it creates have new ids. -/
theorem Settling.commit (h : Settling s acts) (new : NewIds s size) (p : Party) (now : Instant)
    (enough : (s.run acts).world.used + ((s.run acts).world.journal p).length ≤ size) :
    (((s.run acts).world.commitTx p now).2 ≠ .ok () ∧
      (s.run acts).committed p now = (s.run acts).world.tables) ∨
    (((s.run acts).world.commitTx p now).2 = .ok () ∧
      (∀ e ∈ (s.run acts).world.tables.entries, e.isActive = true →
        ∃ at_, Tables.repriced (e.units - ((s.run acts).world.journal p).outgoing e.id +
          ((s.run acts).world.journal p).incoming e.fund e.owner) at_ e ∈
            ((s.run acts).committed p now).entries) ∧
      ∀ id ∈ ((s.run acts).committed p now).entryIds, id ∈ (s.run acts).world.tables.entryIds ∨
        ∃ n < (s.run acts).world.used + ((s.run acts).world.journal p).length,
          s.world.fresh n = id) := by
  have hnew : ∀ n < ((s.run acts).world.journal p).length,
      (s.run acts).world.fresh ((s.run acts).world.used + n) ∉
        (s.run acts).world.tables.entryIds := fun n hn =>
    h.new_id new (Nat.le_add_right _ _) (by omega)
  have hcreated : ∀ id ∈ Journal.created (fun n => (s.run acts).world.fresh
      ((s.run acts).world.used + n)) ((s.run acts).world.journal p),
      ∃ n < ((s.run acts).world.journal p).length,
        (s.run acts).world.fresh ((s.run acts).world.used + n) = id := by
    intro id hid
    rcases Journal.mem_created hid with ⟨e, he, -⟩ | hsupply
    · exact absurd rfl (h.plain p _ he e)
    · exact hsupply
  simp only [World.commitTx, State.committed]
  rcases hcommit : (s.run acts).world.tables.commit (fun n => (s.run acts).world.fresh
      ((s.run acts).world.used + n)) now ((s.run acts).world.journal p) with ⟨t, v | u⟩
  · refine Or.inl ⟨by simp [Except.mapError], ?_⟩
    refine Tables.commit_error_of_new h.keyed.ids (fun id hid => ?_) hcommit
    obtain ⟨n, hn, rfl⟩ := hcreated id hid
    exact hnew n hn
  · refine Or.inr ⟨rfl, fun e he hactive => ?_, fun id hid => ?_⟩
    · refine Tables.commit_balance h.keyed he hactive (fun hid => ?_) hcommit
      obtain ⟨n, hn, heq⟩ := hcreated _ hid
      exact hnew n hn (heq ▸ List.mem_map_of_mem he)
    · rcases List.mem_append.mp (Tables.entryIds_commit_subset hcommit hid) with hold | hid
      · exact Or.inl hold
      · obtain ⟨n, hn, rfl⟩ := hcreated id hid
        exact Or.inr ⟨_, Nat.add_lt_add_left hn _, by rw [State.fresh_run]⟩

structure Remains (s : State) (acts : List Act) (s' : State) : Prop where
  keyed : s'.world.tables.Keyed
  ids : ∀ id ∈ s'.world.tables.entryIds,
    id ∈ s.world.tables.entryIds ∨ ∃ n < s'.world.used, s.world.fresh n = id
  active : ∀ fund owner e, (s.run acts).world.tables.activeOf fund owner = some e →
    ∃ d, s'.world.tables.activeOf fund owner = some d ∧ d.id = e.id

theorem Settling.remains (h : Settling s acts) (new : NewIds s size) (hs : Step (s.run acts) a s')
    (ha : (s.run acts).transfers a = true) (enough : s'.world.used ≤ size) : Remains s acts s' := by
  have hmore : ∀ id, (∃ n < (s.run acts).world.used, s.world.fresh n = id) →
      ∃ n < s'.world.used, s.world.fresh n = id := by
    rintro id ⟨n, hn, hid⟩
    exact ⟨n, Nat.lt_of_lt_of_le hn hs.used, hid⟩
  have hsame : s'.world.tables = (s.run acts).world.tables → Remains s acts s' := by
    intro htables
    refine ⟨htables ▸ h.keyed, fun id hid => ?_, fun fund owner e he => ⟨e, htables ▸ he, rfl⟩⟩
    exact (h.ids id (htables ▸ hid)).imp_right (hmore id)
  rcases hs.tables with htables | ⟨q, t, rfl, htables, hused⟩ | ⟨rfl, -⟩
  · exact hsame htables
  · rcases h.commit new q t (by omega) with ⟨-, hrefused⟩ | ⟨-, hbalances, hids⟩
    · exact hsame (htables.trans hrefused)
    · have hkeyed : s'.world.tables.Keyed := htables ▸ h.keyed.commit _ _ _
      refine ⟨hkeyed, fun id hid => ?_, fun fund owner e he => ?_⟩
      · rcases hids id (htables ▸ hid) with hold | hnew
        · exact (h.ids id hold).imp_right (hmore id)
        · exact Or.inr (hused ▸ hnew)
      · obtain ⟨hmem, rfl, rfl, hactive⟩ := Tables.mem_of_activeOf he
        obtain ⟨at_, hd⟩ := hbalances e hmem hactive
        rw [← htables] at hd
        exact ⟨_, hkeyed.activeOf_eq_some.mpr ⟨hd, rfl, rfl, hactive⟩, rfl⟩
  · cases ha

theorem Leads.stands {fund : Uuid} {owner : String} (h : Leads (s.run acts) p fund owner)
    (remains : Remains s acts s') (stands : Stands (s.run acts) s') (hj : s'.world.journal p ≠ []) :
    Leads s' p fund owner := by
  obtain ⟨e, he, hhead⟩ := h
  obtain ⟨d, hd, hid⟩ := remains.active fund owner e he
  exact ⟨d, hd, hid ▸ stands.heads p e.id hj hhead⟩

/-- What a transaction of transfers writes: it leads the line of a row that it debits, and a credit is
blind or it leads the line of the owner's row. -/
theorem Settling.writes (h : Settling s acts) {w : Write} (write : Writes (s.run acts) p s' a w)
    (ha : (s.run acts).transfers a = true) (stands : Stands (s.run acts) s')
    (remains : Remains s acts s') (hj : s'.world.journal p ≠ []) :
    (∀ e, w ≠ .entry e) ∧
    (∀ row units, w = .debit row units → (s'.world.locks.line row).head? = some p) ∧
    ∀ fund owner units, w = .credit fund owner units →
      ((∃ now, a = .ask p (.credit fund owner units) now) ∧
        (s.run acts).world.tables.activeOf fund owner = none) ∨ Leads s' p fund owner := by
  have hne : ∀ {w' : Write}, (∀ f o u, w' ≠ .credit f o u) → ∀ fund owner units,
      w' = .credit fund owner units →
        ((∃ now, a = .ask p (.credit fund owner units) now) ∧
          (s.run acts).world.tables.activeOf fund owner = none) ∨ Leads s' p fund owner :=
    fun hw fund owner units heq => absurd heq (hw fund owner units)
  cases write with
  | fund | entry => cases ha
  | @debit row units t =>
    refine ⟨fun e => by simp, ?_, hne (by simp)⟩
    rintro _ _ ⟨⟩
    exact stands.heads p row hj ((RowLocks.holds_iff h.level.tidy).mp ha)
  | unlocked target =>
    refine ⟨fun e => by simp, fun row units => by simp, ?_⟩
    rintro _ _ _ ⟨⟩
    exact Or.inl ⟨⟨_, rfl⟩, target⟩
  | @locked fund owner units t e target granted =>
    refine ⟨fun e => by simp, fun row units => by simp, ?_⟩
    rintro _ _ _ ⟨⟩
    obtain ⟨d, hd, hid⟩ := remains.active fund owner e target
    refine Or.inr ⟨d, hd, ?_⟩
    have hlive : (s.run acts).world.locks.Live e.id := fun l hl _ => h.level.present l hl
    have hhead := (RowLocks.acquire_granted (p := p) h.level.tidy hlive).mp (by rw [granted])
    rw [granted] at hhead
    rw [hid]
    exact hhead
  | @goesOn fund owner units waited arrived =>
    refine ⟨fun e => by simp, fun row units => by simp, ?_⟩
    rintro _ _ _ ⟨⟩
    obtain ⟨e, he, hline⟩ := h.waits p fund owner units waited
    have hleads : Leads (s.run acts) p fund owner :=
      ⟨e, he, RowLocks.head_of_not_waits arrived hline⟩
    exact Or.inr (hleads.stands remains stands hj)
  | record => exact ⟨fun e => by simp, fun row units => by simp, hne (by simp)⟩

structure Advances (s : State) (acts : List Act) (a : Act) : Prop where
  step : Step (s.run acts) a (s.run (acts ++ [a]))
  transfers : (s.run acts).transfers a = true
  stands : Stands (s.run acts) (s.run (acts ++ [a]))
  remains : Remains s acts (s.run (acts ++ [a]))

section Advances

variable (h : Settling s acts) (adv : Advances s acts a)

include h adv

theorem Settling.plain_step (q : Party) : ((s.run (acts ++ [a])).world.journal q).Plain := by
  cases adv.step.journalStep q with
  | keeps same => exact same ▸ h.plain q
  | writes w write own =>
    have hj : (s.run (acts ++ [a])).world.journal q ≠ [] := by simp [own]
    have hentry := (h.writes write adv.transfers adv.stands adv.remains hj).1
    rw [own]
    intro x hx
    rcases List.mem_append.mp hx with hx | hx
    · exact h.plain q x hx
    · exact List.mem_singleton.mp hx ▸ hentry
  | drops empty =>
    rw [empty]
    intro w hw
    cases hw

theorem Settling.debits_step (q : Party) (row : Uuid) (units : Int)
    (hmem : Write.debit row units ∈ (s.run (acts ++ [a])).world.journal q) :
    ((s.run (acts ++ [a])).world.locks.line row).head? = some q := by
  have hj := List.ne_nil_of_mem hmem
  cases adv.step.journalStep q with
  | keeps same => exact adv.stands.heads q row hj (h.debits q row units (same ▸ hmem))
  | writes w write own =>
    rw [own] at hmem
    rcases List.mem_append.mp hmem with hmem | hmem
    · exact adv.stands.heads q row hj (h.debits q row units hmem)
    · exact (h.writes write adv.transfers adv.stands adv.remains hj).2.1 row units
        (List.mem_singleton.mp hmem).symm
  | drops empty => exact absurd empty hj

theorem Settling.credits_step (q : Party) (done rest : Journal) (fund : Uuid) (owner : String)
    (units : Int)
    (hjournal : (s.run (acts ++ [a])).world.journal q = done ++ .credit fund owner units :: rest) :
    Blind s (acts ++ [a]) q done fund owner units ∨ Leads (s.run (acts ++ [a])) q fund owner := by
  have hj : (s.run (acts ++ [a])).world.journal q ≠ [] := by simp [hjournal]
  have hstill : done ++ [.credit fund owner units] <+: (s.run (acts ++ [a])).world.journal q :=
    ⟨rest, by simp [hjournal]⟩
  -- What was credited before is as good as it was.
  have hold : ∀ rest', (s.run acts).world.journal q = done ++ .credit fund owner units :: rest' →
      Blind s (acts ++ [a]) q done fund owner units ∨ Leads (s.run (acts ++ [a])) q fund owner :=
    fun rest' hbefore => (h.credits q done rest' fund owner units hbefore).imp (·.later hstill)
      (·.stands adv.remains adv.stands hj)
  cases adv.step.journalStep q with
  | keeps same => exact hold rest (same ▸ hjournal)
  | writes w write own =>
    rw [own] at hjournal
    rcases List.eq_nil_or_concat rest with rfl | ⟨rest, x, rfl⟩
    · -- It is the write of this act.
      obtain ⟨rfl, hw⟩ := List.append_inj' hjournal rfl
      obtain rfl := List.singleton_inj.mp hw
      rcases (h.writes write adv.transfers adv.stands adv.remains hj).2.2 fund owner units rfl with
        ⟨⟨t, rfl⟩, hnone⟩ | hleads
      · refine Or.inl ⟨acts, t, [], rfl, rfl, hnone, fun u v huv => ?_⟩
        obtain ⟨rfl, rfl⟩ := List.append_eq_nil_iff.mp huv.symm
        exact own ▸ List.prefix_refl _
      · exact Or.inr hleads
    · rw [List.concat_eq_append, ← List.cons_append, ← List.append_assoc] at hjournal
      exact hold rest (List.append_inj' hjournal rfl).1
  | drops empty => exact absurd empty hj

theorem Settling.waits_step (q : Party) (fund : Uuid) (owner : String) (units : Int)
    (hq : (s.run (acts ++ [a])).waiting q = some ⟨.credit fund owner units, ()⟩) :
    ∃ e, (s.run (acts ++ [a])).world.tables.activeOf fund owner = some e ∧
      q ∈ (s.run (acts ++ [a])).world.locks.line e.id := by
  rcases adv.step.creditWaits hq with hold | ⟨e, he, htables, hbusy, -⟩
  · obtain ⟨e, he, hline⟩ := h.waits q fund owner units hold
    obtain ⟨d, hd, hid⟩ := adv.remains.active fund owner e he
    exact ⟨d, hd, hid ▸ adv.stands.waits q e.id (by rw [hq]; simp) hline⟩
  · have hline := h.level.mem_acquire q e.id
    rw [hbusy] at hline
    exact ⟨e, htables ▸ he, hline⟩

end Advances

theorem Settling.step (h : Settling s acts) (new : NewIds s size)
    (ha : (s.run acts).transfers a = true) (enough : (s.run (acts ++ [a])).world.used ≤ size) :
    Settling s (acts ++ [a]) := by
  have hs : Step (s.run acts) a (s.run (acts ++ [a])) := by
    rw [State.run_concat]
    exact State.step_step _ a
  have hreset : a ≠ .dropLocks := by
    rintro rfl
    cases ha
  have adv : Advances s acts a :=
    ⟨hs, ha, hs.lockStep.stands h.level hreset, h.remains new hs ha enough⟩
  exact ⟨adv.remains.keyed, adv.stands.level, adv.remains.ids, h.plain_step adv, h.debits_step adv,
    h.credits_step adv, h.waits_step adv⟩

/-- Every run of transfers is settling. -/
theorem settling_run {fresh : Nat → Uuid} {tables : Tables} (keyed : tables.Keyed) (acts : List Act)
    (transfers : (State.opened fresh tables).transferring acts = true)
    (new : NewIds (State.opened fresh tables) size)
    (enough : ((State.opened fresh tables).run acts).world.used ≤ size) :
    Settling (State.opened fresh tables) acts := by
  induction acts using List.reverseRecOn with
  | nil => exact settling_opened keyed
  | append_singleton acts a ih =>
    have ha := State.transfers_of_transferring transfers
    rw [State.transferring_append, Bool.and_eq_true] at transfers
    have hused : ((State.opened fresh tables).run acts).world.used ≤
        ((State.opened fresh tables).run (acts ++ [a])).world.used := by
      rw [State.run_append]
      exact State.used_le_run _ _
    exact (ih transfers.1 (Nat.le_trans hused enough)).step new ha enough

end UnitLedger.Transactions
