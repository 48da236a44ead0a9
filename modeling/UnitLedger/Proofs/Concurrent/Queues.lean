import UnitLedger.Proofs.Concurrent.Overtaking

/-!
  UnitLedger.Proofs.Concurrent.Queues — who waits, and for which row.

  A party waits in the line of a row when it stands there behind the holder (`Queued`). Nobody stands
  in a line twice, so who waits for a lock does not hold it (`SingleFile`). Only two stages of a call
  wait, each for one row (`Stage.AwaitsRow`), and a transfer asks for the rows of its source and its
  target only. `Lined` is this of all calls; `Lined.step` carries it through every step of a run that
  is not a reset.
-/

namespace UnitLedger.Memory.RowLocks

variable {ls ls' : RowLocks} {p q : Party} {row r : Uuid} {rows : List Uuid}

/-- The party stands in the line of the row behind its holder. -/
def Queued (ls : RowLocks) (p : Party) (row : Uuid) : Prop :=
  p ∈ ls.line row ∧ (ls.line row).head? ≠ some p

/-- Nobody stands in a line twice. -/
def SingleFile (ls : RowLocks) : Prop := ∀ row, (ls.line row).Nodup

def WaitsFor (ls : RowLocks) (p q : Party) : Prop := ∃ l ∈ ls.held, p ∈ l.queue ∧ l.holder = q

instance (ls : RowLocks) (p q : Party) : Decidable (ls.WaitsFor p q) :=
  inferInstanceAs (Decidable (∃ l ∈ ls.held, p ∈ l.queue ∧ l.holder = q))

theorem not_queued_of_not_waits (h : ls.waits p = false) : ¬ ls.Queued p row :=
  fun hq => hq.2 (head_of_not_waits h hq.1)

theorem queued_of_mem (tidy : ls.Tidy) (single : ls.SingleFile) {l : RowLock} (hl : l ∈ ls.held)
    (hp : p ∈ l.queue) : ls.Queued p l.row := by
  have hline := line_of_mem tidy hl
  have hnodup := single l.row
  rw [hline] at hnodup
  refine ⟨by simp [hline, hp], ?_⟩
  rw [hline, List.head?_cons, ne_eq, Option.some.injEq]
  rintro rfl
  exact (List.nodup_cons.mp hnodup).1 hp

theorem WaitsFor.queued (h : ls.WaitsFor p q) (tidy : ls.Tidy) (single : ls.SingleFile) :
    ∃ row, ls.Queued p row ∧ (ls.line row).head? = some q := by
  obtain ⟨l, hl, hp, rfl⟩ := h
  exact ⟨l.row, queued_of_mem tidy single hl hp, by simp [line_of_mem tidy hl]⟩

/-! ## Asking -/

theorem SingleFile.acquire (single : ls.SingleFile) (tidy : ls.Tidy) (live : ls.Live row)
    (hfree : ¬ ls.Queued p row) : (ls.acquire p row).1.SingleFile := by
  intro r
  rw [line_acquire tidy live]
  split
  · rename_i hjoins
    obtain ⟨rfl, hhead⟩ := hjoins
    have hout : p ∉ ls.line r := fun hmem => hfree ⟨hmem, hhead⟩
    refine List.nodup_append.mpr ⟨single r, by simp, ?_⟩
    rintro a ha b hb rfl
    obtain rfl := List.mem_singleton.mp hb
    exact hout ha
  · exact single r

theorem mem_line_acquire (tidy : ls.Tidy) (live : ls.Live row)
    (h : q ∈ (ls.acquire p row).1.line r) : q ∈ ls.line r ∨ row = r := by
  rw [line_acquire tidy live] at h
  split at h
  · rename_i hjoins
    exact Or.inr hjoins.1.symm
  · exact Or.inl h

/-- Who asks comes to wait in the line that it asks for only, and only if it is not given the lock. -/
theorem queued_acquire (tidy : ls.Tidy) (live : ls.Live row)
    (h : (ls.acquire p row).1.Queued p r) :
    ls.Queued p r ∨ (r = row ∧ (ls.acquire p row).2 = false) := by
  by_cases hr : r = row
  · subst hr
    refine Or.inr ⟨rfl, ?_⟩
    rw [← Bool.not_eq_true, acquire_granted tidy live]
    exact h.2
  · have hline : (ls.acquire p row).1.line r = ls.line r := by
      rw [line_acquire tidy live, if_neg fun hjoins => hr hjoins.1]
    rw [Queued, hline] at h
    exact Or.inl h

/-! ## Leaving -/

theorem SingleFile.leave (single : ls.SingleFile) : (ls.leave p).SingleFile := by
  intro r
  rw [line_leave]
  have hnodup := single r
  cases hline : ls.line r with
  | nil => simp
  | cons q rest =>
    rw [hline] at hnodup
    exact hnodup.sublist (List.filter_sublist.cons_cons q)

theorem mem_line_leave (h : q ∈ (ls.leave p).line row) : q ∈ ls.line row := by
  rw [line_leave] at h
  cases hline : ls.line row with
  | nil => simp [hline] at h
  | cons first rest =>
    rw [hline] at h
    exact (List.filter_sublist.cons_cons first).subset h

theorem not_queued_leave : ¬ (ls.leave p).Queued p row := by
  rintro ⟨hmem, hhead⟩
  rw [line_leave] at hmem hhead
  cases hline : ls.line row with
  | nil => simp [hline] at hmem
  | cons q rest =>
    simp only [hline, List.head?_cons, Option.toList_some, List.tail_cons, List.singleton_append,
      ne_eq, Option.some.injEq, List.mem_cons, List.mem_filter, bne_self_eq_false, Bool.false_eq_true,
      and_false, or_false] at hmem hhead
    exact hhead hmem.symm

theorem SingleFile.close (single : ls.SingleFile) (tidy : ls.Tidy) :
    ((ls.leave p).release p).SingleFile := by
  intro r
  rw [line_close tidy]
  exact (single r).filter _

theorem not_mem_close (tidy : ls.Tidy) : p ∉ ((ls.leave p).release p).line row := by
  simp [line_close tidy]

/-- Nobody is made to wait by what another one does. -/
theorem Acts.queued (h : Acts p rows ls ls') (hq : q ≠ p) (hqueued : ls'.Queued q row) :
    ls.Queued q row :=
  ⟨(h.mem hq).mp hqueued.1, fun hhead => hqueued.2 (h.heads row q hq hhead)⟩

end UnitLedger.Memory.RowLocks

namespace UnitLedger.Memory.World

open RowLocks (Asks)

variable {p : Party}

/-- Who locks rows waits afterwards only in the line of the row at which the operation pauses. -/
theorem lockRows_queued (fund : Uuid) (owners : List String) {w : World} (locked : List Entry)
    (sane : w.locks.Sane w.tables.entryIds) (single : w.locks.SingleFile)
    (hfree : ∀ row, ¬ w.locks.Queued p row) :
    (lockRows p fund w owners locked).1.locks.SingleFile ∧
      ∀ row, (lockRows p fund w owners locked).1.locks.Queued p row →
        ∃ rest locked', (lockRows p fund w owners locked).2 = .inr (row, rest, locked') := by
  induction owners generalizing w locked with
  | nil => exact ⟨single, fun row hqueued => absurd hqueued (hfree row)⟩
  | cons owner rest ih =>
    unfold lockRows
    cases he : w.tables.activeOf fund owner with
    | none => exact ih _ sane single hfree
    | some e =>
      have hlive := sane.live _ (mem_entryIds_of_activeOf he)
      have hasks := Asks.acquire (p := p) sane (mem_entryIds_of_activeOf he)
      have hsingle := single.acquire sane.tidy hlive (hfree e.id)
      have hqueued := fun r => RowLocks.queued_acquire (p := p) (r := r) sane.tidy hlive
      dsimp only
      rcases hacq : w.locks.acquire p e.id with ⟨locks, _ | _⟩ <;>
        simp only [hacq, Bool.true_eq_false, and_false, or_false, and_true] at hasks hsingle hqueued
      · refine ⟨hsingle, fun row hrow => ⟨rest, locked, ?_⟩⟩
        rcases hqueued row hrow with hold | rfl
        · exact absurd hold (hfree row)
        · rfl
      · exact ih (w := { w with locks }) _ hasks.sane hsingle
          fun row hrow => hfree row (hqueued row hrow)

/-- Who locks rows comes to stand in lines of rows that it finds. -/
theorem lockRows_lines (fund : Uuid) (owners : List String) {w : World} (locked : List Entry)
    (sane : w.locks.Sane w.tables.entryIds) (row : Uuid)
    (h : p ∈ (lockRows p fund w owners locked).1.locks.line row) :
    p ∈ w.locks.line row ∨ ∃ e ∈ found w.tables fund owners, e.id = row := by
  induction owners generalizing w locked with
  | nil => exact Or.inl h
  | cons owner rest ih =>
    unfold lockRows at h
    cases he : w.tables.activeOf fund owner with
    | none =>
      rw [he] at h
      rw [found, List.filterMap_cons_none he]
      exact ih _ sane h
    | some e =>
      have hasks := Asks.acquire (p := p) sane (mem_entryIds_of_activeOf he)
      have hone := RowLocks.mem_line_acquire (p := p) (q := p) (r := row) sane.tidy
        (sane.live _ (mem_entryIds_of_activeOf he))
      rw [he] at h
      rw [found, List.filterMap_cons_some he]
      simp only [List.exists_mem_cons_iff]
      dsimp only at h
      rcases hacq : w.locks.acquire p e.id with ⟨locks, _ | _⟩ <;> rw [hacq] at h hasks hone
      · exact (hone h).imp_right Or.inl
      · rcases ih (w := { w with locks }) _ hasks.sane h with hmem | hlater
        · exact (hone hmem).imp_right Or.inl
        · exact Or.inr (Or.inr hlater)

end UnitLedger.Memory.World

namespace UnitLedger.Concurrent

open Memory (Party World Tables RowLocks)
open Memory.RowLocks (Asks Acts Sane SingleFile)
open Store (Op)

namespace Stage

variable {w w' : World} {p : Party} {now : Instant} {σ σ' : Stage} {answered : Option Op} {row : Uuid}

def AwaitsRow (t : Tables) (row : Uuid) : Stage → Prop
  | lockWaiting _ row' _ _ => row' = row
  | creditWaiting o _ => ∃ d, t.activeOf o.fund o.target = some d ∧ d.id = row
  | _ => False

theorem AwaitsRow.mono {t t' : Tables} (h : σ.AwaitsRow t row)
    (hstay : ∀ {fund : Uuid} {owner : String} {b : Entry}, t.activeOf fund owner = some b →
      ∃ d, t'.activeOf fund owner = some d ∧ d.id = b.id) : σ.AwaitsRow t' row := by
  cases σ with
  | lockWaiting => exact h
  | creditWaiting o e =>
    obtain ⟨b, hb, hrow⟩ := h
    obtain ⟨d, hd, hid⟩ := hstay hb
    exact ⟨d, hd, hid.trans hrow⟩
  | _ => exact h.elim

structure Queues (w : World) (p : Party) (σ : Stage) : Prop where
  single : w.locks.SingleFile
  queued : ∀ row, w.locks.Queued p row → σ.AwaitsRow w.tables row

theorem Queues.lockRun {o : TransferOrder} {out : LockResult} (h : Queues w p σ)
    (sane : w.locks.Sane w.tables.entryIds) (run : σ.lockRun w p = some (o, w', out)) :
    w'.locks.SingleFile ∧
      ∀ row, w'.locks.Queued p row → ∃ rest locked, out = .inr (row, rest, locked) := by
  have hfree : ∀ row, ¬ w.locks.Queued p row := by
    cases lockRun_cases run with
    | begins => exact fun row hqueued => h.queued row hqueued
    | goesOn arrived => exact fun _ => RowLocks.not_queued_of_not_waits arrived
  obtain ⟨owners, first, rows⟩ := lockRun_rows run
  have hqueued := World.lockRows_queued (p := p) o.fund owners first sane h.single hfree
  rwa [rows] at hqueued

/-- A row that the crediting stage asks for is the one that it waits for then. -/
theorem Queues.acquire {o : TransferOrder} {e d : Entry} {locks : RowLocks} {granted : Bool}
    (h : Queues w p (crediting o e)) (sane : w.locks.Sane w.tables.entryIds)
    (target : w.tables.activeOf o.fund o.target = some d)
    (asked : w.locks.acquire p d.id = (locks, granted)) :
    locks.SingleFile ∧ ∀ row, locks.Queued p row → row = d.id ∧ granted = false := by
  have hlive := sane.live _ (World.mem_entryIds_of_activeOf target)
  have hsingle := h.single.acquire (p := p) sane.tidy hlive (h.queued d.id)
  have hqueued := fun r => RowLocks.queued_acquire (p := p) (r := r) sane.tidy hlive
  rw [asked] at hsingle hqueued
  exact ⟨hsingle, fun row hrow => (hqueued row hrow).resolve_left (h.queued row)⟩

/-- Who has given its locks back waits for nothing. -/
theorem Queues.closed (single : w.locks.SingleFile) (tidy : w.locks.Tidy)
    (hlocks : w'.locks = (w.locks.leave p).release p) : Queues w' p σ' := by
  refine ⟨hlocks ▸ single.close tidy, fun row hqueued => ?_⟩
  rw [hlocks] at hqueued
  exact absurd hqueued.1 (RowLocks.not_mem_close tidy)

theorem Move.queues (h : Move w p now σ w' σ' answered) (sane : w.locks.Sane w.tables.entryIds)
    (hreset : σ ≠ resetting) (before : Queues w p σ) : Queues w' p σ' := by
  cases h with
  | lockNone run | lockShort run | lockEnough run | lockError run =>
    obtain ⟨single, hqueued⟩ := before.lockRun sane run
    refine ⟨single, fun row hrow => ?_⟩
    obtain ⟨rest, locked, hout⟩ := hqueued row hrow
    cases hout
  | lockPause run =>
    obtain ⟨single, hqueued⟩ := before.lockRun sane run
    refine ⟨single, fun row hrow => ?_⟩
    obtain ⟨rest, locked, hout⟩ := hqueued row hrow
    cases hout
    rfl
  | lockGiveUp | creditGiveUp =>
    exact ⟨before.single.leave, fun row hrow => absurd hrow RowLocks.not_queued_leave⟩
  | creditLocked target granted =>
    obtain ⟨single, hqueued⟩ := before.acquire sane target granted
    exact ⟨single, fun row hrow => absurd (hqueued row hrow).2 (by simp)⟩
  | creditPause target busy =>
    obtain ⟨single, hqueued⟩ := before.acquire sane target busy
    exact ⟨single, fun row hrow => ⟨_, target, (hqueued row hrow).1.symm⟩⟩
  | creditGo granted =>
    exact ⟨before.single, fun row hrow => absurd hrow (RowLocks.not_queued_of_not_waits granted)⟩
  | commit | commitRefused | commitBeaten | commitFund | commitFundRefused | repeated | withdraw
  | withdrawBeaten | judge | undoFund => exact .closed before.single sane.tidy rfl
  | reset => exact absurd rfl hreset
  | _ => exact ⟨before.single, fun row hrow => (before.queued row hrow).elim⟩

/-- A move leads to the end of a line in two ways: in the locking operation, or by the credit of an
owner with an entry. -/
theorem Move.lines (h : Move w p now σ w' σ' answered) (sane : w.locks.Sane w.tables.entryIds)
    (hp : p ∈ w'.locks.line row) :
    p ∈ w.locks.line row ∨ (∃ o out, σ.lockRun w p = some (o, w', out)) ∨
      ∃ o e d, σ = crediting o e ∧ w.tables.activeOf o.fund o.target = some d ∧ d.id = row := by
  have hcredit : ∀ {o : TransferOrder} {d : Entry} {locks : RowLocks} {granted : Bool},
      w.tables.activeOf o.fund o.target = some d → w.locks.acquire p d.id = (locks, granted) →
      p ∈ locks.line row → p ∈ w.locks.line row ∨ d.id = row := by
    intro o d locks granted target asked hmem
    refine RowLocks.mem_line_acquire (p := p) sane.tidy
      (sane.live _ (World.mem_entryIds_of_activeOf target)) ?_
    rwa [asked]
  cases h with
  | lockNone run | lockShort run | lockEnough run | lockError run | lockPause run =>
    exact Or.inr (Or.inl ⟨_, _, run⟩)
  | lockGiveUp | creditGiveUp => exact Or.inl (RowLocks.mem_line_leave hp)
  | creditLocked target granted =>
    exact (hcredit target granted hp).imp_right fun hrow => Or.inr ⟨_, _, _, rfl, target, hrow⟩
  | creditPause target busy =>
    exact (hcredit target busy hp).imp_right fun hrow => Or.inr ⟨_, _, _, rfl, target, hrow⟩
  | commit | commitRefused | commitBeaten | commitFund | commitFundRefused | repeated | withdraw
  | withdrawBeaten | judge | undoFund => exact absurd hp (RowLocks.not_mem_close sane.tidy)
  | _ => exact Or.inl hp

/-- A transfer keeps its order until it is answered. -/
theorem Move.order?_keeps (h : Move w p now σ w' σ' answered) {o : TransferOrder}
    (ho : σ.order? = some o) : σ'.order? = some o ∨ σ'.answer?.isSome = true := by
  cases h with
  | lockNone run | lockShort run | lockEnough run | lockError run | lockPause run =>
    rw [lockRun_order? run] at ho
    cases ho
    exact Or.inl rfl
  | _ => first | exact Or.inl ho | exact Or.inr rfl

end Stage

/-! ## Every state of every run without a reset -/

def RowOf (t : Tables) (o : TransferOrder) (row : Uuid) : Prop :=
  ∃ e ∈ t.entries, e.id = row ∧ e.fund = o.fund ∧ (e.owner = o.source ∨ e.owner = o.target)

theorem RowOf.mono {t t' : Tables} {o : TransferOrder} {row : Uuid} (h : RowOf t o row)
    (hstay : ∀ b ∈ t.entries, ∃ d ∈ t'.entries, d.id = b.id ∧ d.fund = b.fund ∧ d.owner = b.owner) :
    RowOf t' o row := by
  obtain ⟨b, hb, hid, hfund, howner⟩ := h
  obtain ⟨d, hd, hdb, hdf, hdo⟩ := hstay b hb
  exact ⟨d, hd, hdb.trans hid, hdf.trans hfund, hdo ▸ howner⟩

structure Lined (s : System Stage) : Prop where
  single : s.world.locks.SingleFile
  queued : ∀ p row, s.world.locks.Queued p row →
    ∃ c, s.caller p = some c ∧ c.progress.AwaitsRow s.world.tables row
  asked : ∀ p row, p ∈ s.world.locks.line row →
    ∃ c o, s.caller p = some c ∧ c.progress.order? = some o ∧ RowOf s.world.tables o row

section Lined

variable {young : Party → Prop} {s s' : System Stage} {p : Party} {c : Caller Stage} {now : Instant}
  {w : World} {σ : Stage} {answered : Option Op} {event : Event} {row : Uuid}

theorem lined_opened (fresh : Nat → Uuid) : Lined (System.opened fresh {}) := by
  have hempty : ∀ p row, p ∉ (System.opened fresh {} : System Stage).world.locks.line row :=
    fun p row h => nomatch h
  exact ⟨fun row => .nil, fun p row h => absurd h.1 (hempty p row), fun p row h =>
    absurd h (hempty p row)⟩

theorem Lined.queues (h : Lined s) (hc : s.caller p = some c) : c.progress.Queues s.world p := by
  refine ⟨h.single, fun row hqueued => ?_⟩
  obtain ⟨d, hd, hwaits⟩ := h.queued p row hqueued
  rw [hc] at hd
  cases hd
  exact hwaits

/-- Who has an entry keeps it. -/
theorem Sound.activeOf_stays (sound : Sound s) (hc : s.caller p = some c)
    (hunfinished : ¬ c.Finished) (move : Stage.Move s.world p now c.progress w σ answered)
    (hids : DistinctIds w.fresh w.used) (hreset : c.progress ≠ .resetting) {fund : Uuid}
    {owner : String} {b : Entry} (hb : s.world.tables.activeOf fund owner = some b) :
    ∃ d, w.tables.activeOf fund owner = some d ∧ d.id = b.id := by
  obtain ⟨hmem, hfund, howner, -⟩ := Tables.mem_of_activeOf hb
  obtain ⟨d, hd, hid, hdf, hdo⟩ := sound.entry_stays hc hunfinished move hids hreset hmem
  have wf := sound.moves_tables hc hunfinished (sound.change hc move hids)
  exact ⟨d, wf.activeOf_eq_some.mpr ⟨hd, hdf.trans hfund, hdo.trans howner⟩, hid⟩

theorem LockView.rowOf {o : TransferOrder} {w' : World} {out : Stage.LockResult}
    {before owners : List String} {first : List Entry}
    (view : LockView s p c o w' out before owners first) (hdiffer : o.source ≠ o.target) {e : Entry}
    (he : e ∈ World.found s.world.tables o.fund owners) : RowOf s.world.tables o e.id := by
  obtain ⟨hmem, hfund, howner⟩ := World.mem_found he
  refine ⟨e, hmem, rfl, hfund, (World.mem_lockOrder hdiffer).mp ?_⟩
  rw [view.order]
  exact List.mem_append_right _ howner

/-- A party that is in a line after its move was in it before, or the row is one of its order. -/
theorem Lasting.asks (lasting : Lasting young s) (sound : Sound s) (guarded : Guarded s) (hp : young p)
    (hc : s.caller p = some c) (move : Stage.Move s.world p now c.progress w σ answered)
    (hmem : p ∈ w.locks.line row) :
    p ∈ s.world.locks.line row ∨
      ∃ o, c.progress.order? = some o ∧ RowOf s.world.tables o row := by
  rcases move.lines guarded.sane hmem with hold | ⟨o, out, run⟩ | ⟨o, e, d, hstage, target, rfl⟩
  · exact Or.inl hold
  · obtain ⟨before, owners, first, view⟩ := lasting.lockView sound hp hc run
    have hlines := World.lockRows_lines (p := p) o.fund owners first guarded.sane row
    rw [view.run] at hlines
    obtain ⟨request, -, hvalid⟩ := (sound.origin p c hc).order o (Stage.lockRun_order? run)
    refine (hlines hmem).imp_right ?_
    rintro ⟨e, he, rfl⟩
    exact ⟨o, Stage.lockRun_order? run, view.rowOf (TransferOrder.accepted hvalid).differ he⟩
  · obtain ⟨hd, hfund, howner, -⟩ := Tables.mem_of_activeOf target
    exact Or.inr ⟨o, by rw [hstage]; rfl, d, hd, rfl, hfund, Or.inr howner⟩

/-- The mover after its move: if it is finished, it has left the lines. -/
theorem Stage.Queues.moved (h : Stage.Queues w p σ) (tidy : w.locks.Tidy) (s : System Stage)
    (c : Caller Stage) (answered : Option Op) :
    Stage.Queues (s.moved p c w σ answered).world p σ ∧
      ∀ row, p ∈ (s.moved p c w σ answered).world.locks.line row →
        σ.answer?.isSome = false ∧ p ∈ w.locks.line row := by
  rw [System.moved_world]
  split
  · exact ⟨.closed h.single tidy rfl, fun row hmem => absurd hmem (RowLocks.not_mem_close tidy)⟩
  · rename_i hopen
    exact ⟨h, fun row hmem => ⟨by simpa using hopen, hmem⟩⟩

theorem Lined.moves (h : Lined s) (lasting : Lasting young s) (sound : Sound s) (guarded : Guarded s)
    (hp : young p) (hc : s.caller p = some c) (hunfinished : ¬ c.Finished)
    (move : Stage.Move s.world p now c.progress w σ answered) (hids : DistinctIds w.fresh w.used) :
    Lined (s.moved p c w σ answered) := by
  have hreset := lasting.noReset p c hc
  have hacts := guarded.acts move hreset
  have hstay := fun b hb => sound.entry_stays hc hunfinished move hids hreset (b := b) hb
  obtain ⟨hqueues, hlines⟩ := (move.queues guarded.sane hreset (h.queues hc)).moved
    (move.acts guarded.sane hreset).sane.tidy s c answered
  refine ⟨hqueues.single, fun q row hqueued => ?_, fun q row hmem => ?_⟩
  · by_cases hq : q = p
    · subst hq
      exact ⟨_, System.moved_caller_self, hqueues.queued row hqueued⟩
    · obtain ⟨d, hd, hwaits⟩ := h.queued q row (hacts.queued hq hqueued)
      rw [System.moved_tables]
      exact ⟨d, by rw [System.moved_caller_ne hq, hd],
        hwaits.mono (sound.activeOf_stays hc hunfinished move hids hreset)⟩
  · rw [System.moved_tables]
    by_cases hq : q = p
    · subst hq
      obtain ⟨hopen, hmem⟩ := hlines row hmem
      have hbefore : ∃ o, c.progress.order? = some o ∧ RowOf s.world.tables o row := by
        rcases lasting.asks sound guarded hp hc move hmem with hold | hnew
        · obtain ⟨d, o, hd, horder, hrow⟩ := h.asked q row hold
          rw [hc] at hd
          cases hd
          exact ⟨o, horder, hrow⟩
        · exact hnew
      obtain ⟨o, horder, hrow⟩ := hbefore
      have hkept : σ.order? = some o := (move.order?_keeps horder).resolve_right (by simp [hopen])
      exact ⟨_, o, System.moved_caller_self, hkept, hrow.mono hstay⟩
    · obtain ⟨d, o, hd, horder, hrow⟩ := h.asked q row ((hacts.mem hq).mp hmem)
      exact ⟨d, o, by rw [System.moved_caller_ne hq, hd], horder, hrow.mono hstay⟩

theorem Lined.step (h : Lined s) (lasting : Lasting young s) (sound : Sound s) (guarded : Guarded s)
    (hall : ∀ p, young p) (hs : s.Step event s') (hids : DistinctIds s'.world.fresh s'.world.used) :
    Lined s' := by
  cases hs with
  | ignored => exact h
  | @arrives p call now new =>
    -- Who arrives stands in no line, so those in lines were there before.
    have hkeeps : ∀ q row, q ∈ s.world.locks.line row →
        (s.arrive stages p call now).caller q = s.caller q := by
      intro q row hmem
      refine System.arrive_caller_ne call ?_
      rintro rfl
      exact guarded.early q (fun c hc => by rw [new] at hc; cases hc) row hmem
    refine ⟨h.single, fun q row hqueued => ?_, fun q row hmem => ?_⟩
    · rw [hkeeps q row hqueued.1]
      exact h.queued q row hqueued
    · rw [hkeeps q row hmem]
      exact h.asked q row hmem
  | moves caller unfinished move =>
    exact h.moves lasting sound guarded (hall _) caller unfinished move (by simpa using hids)

end Lined

end UnitLedger.Concurrent
