import UnitLedger.Proofs.Concurrent.Queueing
import UnitLedger.Proofs.Concurrent.Sound

/-!
  UnitLedger.Proofs.Concurrent.Guarded — what a locked row is worth.

  `Guarded` ties the row locks to the stages of the calls. A transfer leads the line of every row that
  it has locked, stands in the line of the row that it waits for, and in no other line of a committed
  row. Only who leads the line of an entry can commit a debit of it, so an entry that was read under
  its lock has no fewer units at any later time (`units`): credits may come in, debits may not.

  `guarded_run`: every state of every run is guarded, resets included. A reset lets a new era of locks
  begin, but the rows of the old era are gone for good, and no new row is given one of their ids.
-/

namespace UnitLedger.Concurrent

open Memory (Party World Journal Tables RowLocks)
open Memory.RowLocks (Asks Acts Sane)
open Store (Op)

def Stage.Early : Stage → Prop
  | .opening _ | .looking _ _ | .locking _ => True
  | _ => False

structure Guarded (s : System Stage) : Prop where
  sane : s.world.locks.Sane s.world.tables.entryIds
  rows : ∀ l ∈ s.world.locks.held, Spent .entry s l.row
  early : ∀ p, (∀ c, s.caller p = some c → c.progress.Early) → ∀ row, p ∉ s.world.locks.line row
  waits : ∀ p c o row rest locked, s.caller p = some c → c.progress = .lockWaiting o row rest locked →
    p ∈ s.world.locks.line row ∧ ∀ e ∈ s.world.tables.entries, p ∈ s.world.locks.line e.id →
      e.id = row ∨ ∃ x ∈ locked, x.id = e.id
  heads : ∀ p c, s.caller p = some c → ∀ e ∈ c.progress.holding,
    (s.world.locks.line e.id).head? = some p
  units : ∀ p c, s.caller p = some c → ∀ e ∈ c.progress.holding, ∀ d ∈ s.world.tables.entries,
    d.id = e.id → e.units ≤ d.units

section Guarded

variable {s s' : System Stage} {p : Party} {c : Caller Stage} {now : Instant} {w : World} {σ : Stage}
  {answered : Option Op} {event : Event}

/-- The entry is guarded for the party: it leads the line, and the committed entry has no fewer
units. -/
def Holds (t : Tables) (ls : RowLocks) (p : Party) (e : Entry) : Prop :=
  (ls.line e.id).head? = some p ∧ ∀ d ∈ t.entries, d.id = e.id → e.units ≤ d.units

theorem Holds.of_mem {t : Tables} {ls : RowLocks} (wf : t.WellFormed) {e : Entry} (he : e ∈ t.entries)
    (hhead : (ls.line e.id).head? = some p) : Holds t ls p e := by
  refine ⟨hhead, fun d hd hid => ?_⟩
  obtain rfl := wf.eq_of_id hd he hid
  exact Int.le_refl _

theorem Guarded.holds (h : Guarded s) (hc : s.caller p = some c) {e : Entry}
    (he : e ∈ c.progress.holding) : Holds s.world.tables s.world.locks p e :=
  ⟨h.heads p c hc e he, h.units p c hc e he⟩

/-- What a transfer holds has a spent id. -/
theorem Sound.holding (h : Sound s) (hc : s.caller p = some c) {e : Entry}
    (he : e ∈ c.progress.holding) : Rooted s e := by
  cases hstage : c.progress with
  | lockWaiting o row rest locked =>
    rw [hstage] at he
    exact (h.locked p c o row rest locked hc hstage e he).2
  | debiting o source | crediting o source | creditWaiting o source | appending o source
  | committing o source record =>
    rw [hstage] at he
    obtain rfl := List.mem_singleton.mp he
    exact (h.source p c o e hc (by rw [hstage]; rfl)).2.2.2
  | _ =>
    rw [hstage] at he
    cases he

/-- What the locking operation came to: all rows that it has locked are guarded for the party, and if it
pauses, the party stands in the line that it waits for and in no line of another row. -/
def Locked (t : Tables) (ls : RowLocks) (p : Party) : Stage.LockResult → Prop
  | .inl (.ok locked) => ∀ e ∈ locked, Holds t ls p e
  | .inl (.error _) => True
  | .inr (row, _, locked) =>
    (p ∈ ls.line row ∧ ∀ e ∈ t.entries, p ∈ ls.line e.id → e.id = row ∨ ∃ x ∈ locked, x.id = e.id) ∧
      ∀ e ∈ locked, Holds t ls p e

/-- Locking rows one after the other keeps what was locked before. -/
theorem lockRows_locked {w w' : World} {out : Stage.LockResult} {first : List Entry} {fund : Uuid}
    {owners : List String} (wf : w.tables.WellFormed) (sane : w.locks.Sane w.tables.entryIds)
    (hj : w.journal p = []) (hfirst : ∀ e ∈ first, Holds w.tables w.locks p e)
    (hmine : ∀ e ∈ w.tables.entries, p ∈ w.locks.line e.id → ∃ x ∈ first, x.id = e.id)
    (run : World.lockRows p fund w owners first = (w', out)) : Locked w.tables w'.locks p out := by
  have hasks := World.lockRows_asks (p := p) fund owners first sane
  have hfound := World.lockRows_found fund owners first wf hj
  have hheaded := World.lockRows_headed (p := p) fund owners first sane
  rw [run] at hasks hfound hheaded
  -- The committed rows that were just locked are as they were read.
  have hall : ∀ owners', (∀ e ∈ World.found w.tables fund owners', (w'.locks.line e.id).head? = some p) →
      ∀ e ∈ first ++ World.found w.tables fund owners', Holds w.tables w'.locks p e := by
    intro owners' hheads e he
    rcases List.mem_append.mp he with he | he
    · exact ⟨hasks.head (hfirst e he).1, (hfirst e he).2⟩
    · exact .of_mem wf (World.mem_found he).1 (hheads e he)
  cases out with
  | inl r =>
    obtain rfl : r = .ok (first ++ World.found w.tables fund owners) := hfound
    exact hall owners hheaded
  | inr pause =>
    obtain ⟨row, rest, locked⟩ := pause
    obtain ⟨done, owner, e, rfl, he, hid, rfl⟩ := hfound
    obtain ⟨done', owner', howners, hrow, hheads, hmem⟩ := hheaded
    obtain ⟨rfl, hcons⟩ := List.append_inj' howners rfl
    refine ⟨⟨hrow, fun d hd hline => ?_⟩, hall done hheads⟩
    rcases hmem d.id hline with hold | heq | ⟨x, hx, hxd⟩
    · obtain ⟨x, hx, hxd⟩ := hmine d hd hold
      exact Or.inr ⟨x, List.mem_append_left _ hx, hxd⟩
    · exact Or.inl heq
    · exact Or.inr ⟨x, List.mem_append_right _ hx, hxd⟩

/-- A transfer comes to its locks without any, or goes on with those that it has. -/
theorem Guarded.lockRun (h : Guarded s) (sound : Sound s) (hc : s.caller p = some c)
    {o : TransferOrder} {w' : World} {out : Stage.LockResult}
    (run : c.progress.lockRun s.world p = some (o, w', out)) :
    Locked s.world.tables w'.locks p out := by
  have hj := sound.journal p c [] hc (Stage.lockRun_journal? run)
  generalize hstage : c.progress = σ at run
  cases Stage.lockRun_cases run with
  | begins hout =>
    refine lockRows_locked sound.tables h.sane hj (by simp) ?_ hout
    intro e _ hline
    refine absurd hline (h.early p (fun d hd => ?_) e.id)
    rw [hc] at hd
    cases hd
    rw [hstage]
    trivial
  | @goesOn row rest locked arrived hout =>
    obtain ⟨hrow, hmine⟩ := h.waits p c o row rest locked hc hstage
    refine lockRows_locked sound.tables h.sane hj ?_ ?_ hout
    · intro e he
      rcases List.mem_append.mp he with he | he
      · exact h.holds hc (by rw [hstage]; exact he)
      · rw [World.reread_eq sound.tables hj, Option.mem_toList] at he
        obtain ⟨hmem, rfl⟩ := Tables.mem_of_entryById he
        exact .of_mem sound.tables hmem (RowLocks.head_of_not_waits arrived hrow)
    · intro e he hline
      rcases hmine e he hline with rfl | ⟨x, hx, hxe⟩
      · refine ⟨e, List.mem_append_right _ ?_, rfl⟩
        rw [World.reread_eq sound.tables hj, Option.mem_toList, sound.tables.entryById_eq_some]
        exact ⟨he, rfl⟩
      · exact ⟨x, List.mem_append_left _ hx, hxe⟩

/-! ## Steps -/

theorem Caller.arriving_not_locks (w : World) (call : Call) (now : Instant) :
    ¬ (Caller.arriving w call now).progress.Locks := fun hlocks =>
  hlocks.journal? (Stage.start_journal? call)

theorem Guarded.arrives {call : Call} (h : Guarded s) (new : s.caller p = none)
    (hids : DistinctIds s.world.fresh (s.world.used + 2)) :
    Guarded (s.arrive stages p call now) := by
  have hstep : s.Step (.call p call now) (s.arrive stages p call now) := .arrives new
  -- Who has asked for locks was there before.
  have hold : ∀ q d, (s.arrive stages p call now).caller q = some d → d.progress.Locks →
      s.caller q = some d := by
    intro q d hd hlocks
    rcases System.arrive_caller hd with ⟨-, rfl⟩ | ⟨-, hd⟩
    · exact absurd hlocks (Caller.arriving_not_locks s.world call now)
    · exact hd
  refine ⟨h.sane, fun l hl => (h.rows l hl).step hstep hids, ?_, ?_, ?_, ?_⟩
  · intro q hq row
    refine h.early q (fun d hd => ?_) row
    by_cases hqp : q = p
    · rw [hqp, new] at hd
      cases hd
    · exact hq d (by rwa [System.arrive_caller_ne call hqp])
  · intro q d o row rest locked hd hstage
    exact h.waits q d o row rest locked (hold q d hd (by rw [hstage]; trivial)) hstage
  · intro q d hd e he
    exact h.heads q d (hold q d hd (Stage.locks_of_holding he)) e he
  · intro q d hd e he
    exact h.units q d (hold q d hd (Stage.locks_of_holding he)) e he

/-- What a move does to the lines of the others. -/
theorem Guarded.acts (h : Guarded s) (move : Stage.Move s.world p now c.progress w σ answered)
    (hreset : c.progress ≠ .resetting) :
    Acts p s.world.tables.entryIds s.world.locks (s.moved p c w σ answered).world.locks := by
  have hacts := move.acts h.sane hreset
  rw [System.moved_world]
  split
  · exact hacts.trans (.close hacts.sane)
  · exact hacts

theorem Stage.Locks.answer? {σ : Stage} (h : σ.Locks) : σ.answer? = none := by
  cases σ <;> first | exact False.elim h | rfl

/-- While a transfer asks for locks its turn is all that happens to the world. -/
theorem System.moved_world_of_locks (h : σ.Locks) : (s.moved p c w σ answered).world = w := by
  rw [System.moved_world, h.answer?]
  rfl

/-- A reset empties the tables and begins a new era of locks. -/
theorem Stage.Move.resets {w w' : World} {σ σ' : Stage} (move : Stage.Move w p now σ w' σ' answered)
    (hreset : σ = .resetting) : w' = w.dropRows.dropLocks ∧ ∃ a, σ' = .finished a := by
  subst hreset
  cases move with
  | reset => exact ⟨rfl, _, rfl⟩
  | lockNone run | lockShort run | lockEnough run | lockError run | lockPause run => cases run

/-- Who stands early moved without locks, or did not move. -/
theorem Stage.Move.early {w w' : World} {σ σ' : Stage} (move : Stage.Move w p now σ w' σ' answered)
    (hearly : σ'.Early) : σ.Early ∧ w'.locks = w.locks := by
  cases move with
  | openKeyless | openKeyed | lookFresh => exact ⟨trivial, rfl⟩
  | _ => exact False.elim hearly

theorem Guarded.moves_sane (h : Guarded s) (sound : Sound s) (hc : s.caller p = some c)
    (hunfinished : ¬ c.Finished) (move : Stage.Move s.world p now c.progress w σ answered)
    (hids : DistinctIds w.fresh w.used) (hreset : c.progress ≠ .resetting) :
    (s.moved p c w σ answered).world.locks.Sane w.tables.entryIds := by
  have hacts := h.acts move hreset
  refine ⟨hacts.sane.tidy, fun row hrow => ?_⟩
  obtain ⟨d, hd, rfl⟩ := List.mem_map.mp hrow
  rcases sound.moved_entry hc hunfinished move hids hd with hnew | ⟨b, hb, hbd, -⟩
  · -- A new row has no lock: locks are only on rows whose ids are spent.
    intro l hl hld
    have hspent : Spent .entry s l.row := by
      rcases hacts.held l hl with ⟨l', hl', hrow⟩ | hrow
      · exact hrow ▸ h.rows l' hl'
      · obtain ⟨e, he, heq⟩ := List.mem_map.mp hrow
        exact heq ▸ sound.entries e he
    exact absurd (hld ▸ hspent) hnew
  · exact hbd ▸ hacts.sane.live b.id (List.mem_map_of_mem hb)

theorem Guarded.moves_holds (h : Guarded s) (sound : Sound s) (hc : s.caller p = some c)
    (hunfinished : ¬ c.Finished) (move : Stage.Move s.world p now c.progress w σ answered)
    (hids : DistinctIds w.fresh w.used) (hreset : c.progress ≠ .resetting) :
    ∀ q d, (s.moved p c w σ answered).caller q = some d → ∀ e ∈ d.progress.holding,
      Holds w.tables (s.moved p c w σ answered).world.locks q e := by
  intro q d hd e he
  rcases System.moved_caller hd with ⟨rfl, rfl⟩ | ⟨hq, hd⟩
  · have hlocks : σ.Locks := Stage.locks_of_holding he
    rw [System.moved_world_of_locks hlocks, move.tables_of_locks hlocks]
    rcases move.holding he with hold | ⟨o, locked, run, hmem⟩ | ⟨o, row, rest, locked, run, hmem⟩
    · obtain ⟨hhead, hunits⟩ := h.holds hc hold
      exact ⟨(move.asks h.sane hlocks).head hhead, hunits⟩
    · exact h.lockRun sound hc run e hmem
    · exact (h.lockRun sound hc run).2 e hmem
  · obtain ⟨hhead, hunits⟩ := h.holds hd he
    refine ⟨(h.acts move hreset).heads e.id q hq hhead, fun x hx hxe => ?_⟩
    rcases sound.moved_entry hc hunfinished move hids hx with
      hnew | ⟨b, hb, hbx, -, -, hmore | ⟨o, source, r, hstage, hsource⟩⟩
    · exact absurd (hxe ▸ (sound.holding hd he).1) hnew
    · exact Int.le_trans (hunits b hb (hbx.trans hxe)) hmore
    · -- Two transfers cannot both lead the line of the debited row.
      have hother := h.heads p c hc source (by rw [hstage]; exact List.mem_singleton_self _)
      rw [hsource.trans (hbx.trans hxe), hhead] at hother
      exact absurd (Option.some.inj hother) hq

theorem Guarded.moves (h : Guarded s) (sound : Sound s) (hc : s.caller p = some c)
    (hunfinished : ¬ c.Finished) (move : Stage.Move s.world p now c.progress w σ answered)
    (hids : DistinctIds w.fresh w.used) (hreset : c.progress ≠ .resetting) :
    Guarded (s.moved p c w σ answered) := by
  have hstep : s.Step (.turn p now) (s.moved p c w σ answered) := .moves hc hunfinished move
  have hids' : DistinctIds (s.moved p c w σ answered).world.fresh
      (s.moved p c w σ answered).world.used := by simpa using hids
  have hacts := h.acts move hreset
  have hholds := h.moves_holds sound hc hunfinished move hids hreset
  refine ⟨?_, ?_, ?_, ?_, fun q d hd e he => (hholds q d hd e he).1, ?_⟩
  · rw [System.moved_tables]
    exact h.moves_sane sound hc hunfinished move hids hreset
  · intro l hl
    rcases hacts.held l hl with ⟨l', hl', hrow⟩ | hrow
    · exact hrow ▸ (h.rows l' hl').step hstep hids'
    · obtain ⟨e, he, heq⟩ := List.mem_map.mp hrow
      exact heq ▸ (sound.entries e he).step hstep hids'
  · intro q hq row
    by_cases hqp : q = p
    · subst hqp
      obtain ⟨hearly, hsame⟩ := move.early (hq _ System.moved_caller_self)
      have hopen : σ.answer? = none := by
        have hσ : σ.Early := hq _ System.moved_caller_self
        cases σ <;> first | exact False.elim hσ | rfl
      rw [System.moved_world, hopen]
      have hline := h.early q (fun d hd => by rw [hc] at hd; cases hd; exact hearly) row
      rw [← hsame] at hline
      exact hline
    · rw [hacts.mem hqp]
      exact h.early q (fun d hd => hq d (by rwa [System.moved_caller_ne hqp])) row
  · intro q d o row rest locked hd hstage
    rw [System.moved_tables]
    rcases System.moved_caller hd with ⟨rfl, rfl⟩ | ⟨hq, hd⟩
    · simp only [Caller.moved] at hstage
      subst hstage
      have hlocks : (Stage.lockWaiting o row rest locked).Locks := trivial
      rw [System.moved_world_of_locks hlocks, move.tables_of_locks hlocks]
      exact (h.lockRun sound hc move.paused).1
    · obtain ⟨hrow, hmine⟩ := h.waits q d o row rest locked hd hstage
      refine ⟨(hacts.mem hq).mpr hrow, fun x hx hline => ?_⟩
      rw [hacts.mem hq] at hline
      rcases sound.moved_entry hc hunfinished move hids hx with hnew | ⟨b, hb, hbx, -⟩
      · obtain ⟨l, hl, hlrow, -⟩ := RowLocks.exists_of_mem_line hline
        exact absurd (hlrow ▸ h.rows l hl) hnew
      · exact hbx ▸ hmine b hb (hbx ▸ hline)
  · rw [System.moved_tables]
    exact fun q d hd e he => (hholds q d hd e he).2

/-- A reset empties the rows and leaves everybody in their lines. -/
theorem Guarded.resets (h : Guarded s) (hc : s.caller p = some c) (hunfinished : ¬ c.Finished)
    (move : Stage.Move s.world p now c.progress w σ answered) (hids : DistinctIds w.fresh w.used)
    (hreset : c.progress = .resetting) : Guarded (s.moved p c w σ answered) := by
  have hstep : s.Step (.turn p now) (s.moved p c w σ answered) := .moves hc hunfinished move
  have hids' : DistinctIds (s.moved p c w σ answered).world.fresh
      (s.moved p c w σ answered).world.used := by simpa using hids
  have htables : (s.moved p c w σ answered).world.tables = {} := by
    rw [System.moved_tables, move.tables, hreset]
    rfl
  obtain ⟨hworld, a, hσ⟩ := move.resets hreset
  have hacts : Acts p [] s.world.locks (s.moved p c w σ answered).world.locks := by
    have hsane : s.world.locks.clear.Sane [] := ⟨h.sane.tidy, by simp⟩
    have hclosed := Acts.close (p := p) hsane
    rw [System.moved_world, hσ, hworld]
    -- A line does not depend on the era.
    exact ⟨hclosed.sane, hclosed.held, hclosed.others, hclosed.heads⟩
  refine ⟨?_, ?_, ?_, ?_, ?_, ?_⟩
  · rw [htables]
    exact hacts.sane
  · intro l hl
    rcases hacts.held l hl with ⟨l', hl', hrow⟩ | hrow
    · exact hrow ▸ (h.rows l' hl').step hstep hids'
    · cases hrow
  · intro q hq row
    by_cases hqp : q = p
    · subst hqp
      have hσ' : σ.Early := hq _ System.moved_caller_self
      rw [hσ] at hσ'
      exact False.elim hσ'
    · rw [hacts.mem hqp]
      exact h.early q (fun d hd => hq d (by rwa [System.moved_caller_ne hqp])) row
  · intro q d o row rest locked hd hstage
    rw [htables]
    rcases System.moved_caller hd with ⟨-, rfl⟩ | ⟨hq, hd⟩
    · rw [show (c.moved σ answered).progress = σ from rfl, hσ] at hstage
      cases hstage
    · exact ⟨(hacts.mem hq).mpr (h.waits q d o row rest locked hd hstage).1, by simp⟩
  · intro q d hd e he
    rcases System.moved_caller hd with ⟨-, rfl⟩ | ⟨hq, hd⟩
    · rw [show (c.moved σ answered).progress = σ from rfl, hσ] at he
      cases he
    · exact hacts.heads e.id q hq (h.heads q d hd e he)
  · rw [htables]
    intro q d _ e _ x hx
    cases hx

theorem guarded_opened (fresh : Nat → Uuid) : Guarded (System.opened fresh {}) := by
  refine ⟨⟨by simp [System.opened, RowLocks.Tidy], ?_⟩, ?_, ?_, ?_, ?_, ?_⟩
  case refine_1 => intro row hrow; cases hrow
  case refine_2 => intro l hl; cases hl
  case refine_3 => intro p _ row hrow; cases hrow
  all_goals intros; contradiction

theorem Guarded.step (h : Guarded s) (sound : Sound s) (hs : s.Step event s')
    (hids : DistinctIds s'.world.fresh s'.world.used) : Guarded s' := by
  cases hs with
  | ignored => exact h
  | arrives new => exact h.arrives new hids
  | @moves p now c w σ answered caller unfinished move =>
    have hids' : DistinctIds w.fresh w.used := by simpa using hids
    by_cases hreset : c.progress = .resetting
    · exact h.resets caller unfinished move hids' hreset
    · exact h.moves sound caller unfinished move hids' hreset

theorem guarded_run {fresh : Nat → Uuid} (es : List Event)
    (hids : DistinctIds fresh ((System.opened fresh {}).run stages es).world.used) :
    Guarded ((System.opened fresh {}).run stages es) := by
  refine (System.run_induction (I := fun s => Sound s ∧ Guarded s) ?_ ?_ es hids).2
  · exact ⟨sound_opened fresh, guarded_opened fresh⟩
  · exact fun s e s' h hs hids => ⟨h.1.step hs hids, h.2.step h.1 hs hids⟩

end Guarded

end UnitLedger.Concurrent
