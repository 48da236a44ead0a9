import UnitLedger.Proofs.Concurrent.Guarded

/-!
  UnitLedger.Proofs.Concurrent.Lasting — rows that stay.

  While nobody resets the store, entries are added and changed but never taken away. So what a call has
  locked, or waits for, is still there, as long as it arrived after the last reset. `Lasting young` says
  this of the calls of some parties, the `young` ones, and says where a waiting transfer stands: in the
  order in which rows are locked there are owners whose rows it is done with, the owner whose row it
  waits for, and the rest (`Awaits`).

  `Lasting.lockView` is the one look at what a transfer does in a turn of its locking operation; what
  is shown of the rows that it finds is shown from there.
-/

namespace UnitLedger.Concurrent

open Memory (Party World Tables)
open Store (Op)

/-- The owners, in the order in which their rows are locked, around the row that is waited for. -/
structure Awaits (t : Tables) (o : TransferOrder) (row : Uuid) (rest : List String)
    (locked : List Entry) (done : List String) (owner : String) : Prop where
  order : World.lockOrder [o.source, o.target] = done ++ owner :: rest
  row : ∃ d ∈ t.entries, d.id = row ∧ d.fund = o.fund ∧ d.owner = owner
  locked : ∀ x ∈ locked, x.owner ∈ done

structure Lasting (young : Party → Prop) (s : System Stage) : Prop where
  noReset : ∀ p c, s.caller p = some c → c.progress ≠ .resetting
  present : ∀ p c, young p → s.caller p = some c → ∀ e ∈ c.progress.holding,
    ∃ d ∈ s.world.tables.entries, d.id = e.id
  awaits : ∀ p c o row rest locked, young p → s.caller p = some c →
    c.progress = .lockWaiting o row rest locked →
    ∃ done owner, Awaits s.world.tables o row rest locked done owner

section Lasting

variable {young : Party → Prop} {s s' : System Stage} {p : Party} {c : Caller Stage} {now : Instant}
  {w w' : World} {σ : Stage} {answered : Option Op} {event : Event} {o : TransferOrder}
  {out : Stage.LockResult}

/-- A turn of the locking operation: the owners before it, those still to come, and what was found of
the former. -/
structure LockView (s : System Stage) (p : Party) (c : Caller Stage) (o : TransferOrder) (w' : World)
    (out : Stage.LockResult) (before owners : List String) (first : List Entry) : Prop where
  order : World.lockOrder [o.source, o.target] = before ++ owners
  run : World.lockRows p o.fund s.world owners first = (w', out)
  known : ∀ x ∈ first, x.owner ∈ before ∧ ∃ d ∈ s.world.tables.entries, d.id = x.id
  stage : (c.progress = .locking o ∧ before = [] ∧ first = []) ∨
    ∃ row locked done owner d, c.progress = .lockWaiting o row owners locked ∧
      s.world.locks.waits p = false ∧ Awaits s.world.tables o row owners locked done owner ∧
      d ∈ s.world.tables.entries ∧ d.id = row ∧ d.fund = o.fund ∧ d.owner = owner ∧
      before = done ++ [owner] ∧ first = locked ++ [d]

theorem Lasting.lockView (h : Lasting young s) (sound : Sound s) (hp : young p)
    (hc : s.caller p = some c) (run : c.progress.lockRun s.world p = some (o, w', out)) :
    ∃ before owners first, LockView s p c o w' out before owners first := by
  have hj := sound.journal p c [] hc (Stage.lockRun_journal? run)
  generalize hstage : c.progress = σ at run
  cases Stage.lockRun_cases run with
  | begins hout => exact ⟨[], _, [], rfl, hout, by simp, Or.inl ⟨hstage, rfl, rfl⟩⟩
  | @goesOn row rest locked arrived hout =>
    obtain ⟨done, owner, haw⟩ := h.awaits p c o row rest locked hp hc hstage
    obtain ⟨d, hd, hid, hfund, howner⟩ := haw.row
    have hread : s.world.reread p row = [d] := by
      rw [World.reread_eq sound.tables hj, sound.tables.entryById_eq_some.mpr ⟨hd, hid⟩]
      rfl
    rw [hread] at hout
    refine ⟨done ++ [owner], rest, locked ++ [d], by simp [haw.order], hout, ?_, Or.inr
      ⟨row, locked, done, owner, d, hstage, arrived, haw, hd, hid, hfund, howner, rfl, rfl⟩⟩
    intro x hx
    rcases List.mem_append.mp hx with hx | hx
    · exact ⟨List.mem_append_left _ (haw.locked x hx), h.present p c hp hc x
        (by rw [hstage]; exact hx)⟩
    · obtain rfl := List.mem_singleton.mp hx
      exact ⟨by simp [howner], x, hd, rfl⟩

namespace LockView

variable {before owners : List String} {first : List Entry}
  (view : LockView s p c o w' out before owners first) (sound : Sound s) (hc : s.caller p = some c)

include view sound hc

theorem journal : s.world.journal p = [] := by
  rcases view.stage with ⟨hstage, -⟩ | ⟨row, locked, done, owner, d, hstage, -⟩ <;>
    exact sound.journal p c [] hc (by rw [hstage]; rfl)

/-- What was found, when the operation comes to its end. -/
theorem found {locked : List Entry} (hout : out = .inl (.ok locked)) :
    locked = first ++ World.found s.world.tables o.fund owners := by
  subst hout
  have hfound := World.lockRows_found o.fund owners first sound.tables (view.journal sound hc)
  rw [view.run] at hfound
  exact Except.ok.inj hfound

/-- What was found, when the operation pauses, and who is waited for. -/
theorem paused {row : Uuid} {rest : List String} {locked : List Entry}
    (hout : out = .inr (row, rest, locked)) :
    ∃ done owner, owners = done ++ owner :: rest ∧
      locked = first ++ World.found s.world.tables o.fund done ∧
      Awaits s.world.tables o row rest locked (before ++ done) owner := by
  subst hout
  have hfound := World.lockRows_found o.fund owners first sound.tables (view.journal sound hc)
  rw [view.run] at hfound
  obtain ⟨done, owner, e, howners, he, hid, hlocked⟩ := hfound
  obtain ⟨hmem, hfund, howner, -⟩ := Tables.mem_of_activeOf he
  refine ⟨done, owner, howners, hlocked, by rw [view.order, howners, List.append_assoc],
    ⟨e, hmem, hid, hfund, howner⟩, ?_⟩
  rw [hlocked]
  intro x hx
  rcases List.mem_append.mp hx with hx | hx
  · exact List.mem_append_left _ (view.known x hx).1
  · exact List.mem_append_right _ (World.mem_found hx).2.2

end LockView

/-! ## Steps -/

theorem Awaits.mono {t t' : Tables} {row : Uuid} {rest : List String} {locked : List Entry}
    {done : List String} {owner : String} (h : Awaits t o row rest locked done owner)
    (hstay : ∀ b ∈ t.entries, ∃ d ∈ t'.entries, d.id = b.id ∧ d.fund = b.fund ∧ d.owner = b.owner) :
    Awaits t' o row rest locked done owner := by
  obtain ⟨b, hb, hid, hfund, howner⟩ := h.row
  obtain ⟨d, hd, hdb, hdf, hdo⟩ := hstay b hb
  exact ⟨h.order, ⟨d, hd, hdb.trans hid, hdf.trans hfund, hdo.trans howner⟩, h.locked⟩

theorem Lasting.arrives {call : Call} (h : Lasting young s) (hreset : call ≠ .reset) :
    Lasting young (s.arrive stages p call now) := by
  have hold : ∀ q d, (s.arrive stages p call now).caller q = some d → d.progress.Locks →
      s.caller q = some d := by
    intro q d hd hlocks
    rcases System.arrive_caller hd with ⟨-, rfl⟩ | ⟨-, hd⟩
    · exact absurd hlocks (Caller.arriving_not_locks s.world call now)
    · exact hd
  refine ⟨?_, ?_, ?_⟩
  · intro q d hd
    rcases System.arrive_caller hd with ⟨-, rfl⟩ | ⟨-, hd⟩
    · exact Stage.start_ne_resetting hreset
    · exact h.noReset q d hd
  · intro q d hq hd e he
    exact h.present q d hq (hold q d hd (Stage.locks_of_holding he)) e he
  · intro q d o row rest locked hq hd hstage
    exact h.awaits q d o row rest locked hq (hold q d hd (by rw [hstage]; trivial)) hstage

theorem Lasting.moves (h : Lasting young s) (sound : Sound s) (hc : s.caller p = some c)
    (hunfinished : ¬ c.Finished) (move : Stage.Move s.world p now c.progress w σ answered)
    (hids : DistinctIds w.fresh w.used) : Lasting young (s.moved p c w σ answered) := by
  have hstay : ∀ b ∈ s.world.tables.entries, ∃ d ∈ w.tables.entries, d.id = b.id ∧
      d.fund = b.fund ∧ d.owner = b.owner := fun b hb =>
    sound.entry_stays hc hunfinished move hids (h.noReset p c hc) hb
  have hpresent : ∀ {e : Entry}, (∃ d ∈ s.world.tables.entries, d.id = e.id) →
      ∃ d ∈ w.tables.entries, d.id = e.id := by
    rintro e ⟨b, hb, hbe⟩
    obtain ⟨d, hd, hdb, -⟩ := hstay b hb
    exact ⟨d, hd, hdb.trans hbe⟩
  refine ⟨?_, ?_, ?_⟩
  · intro q d hd
    rcases System.moved_caller hd with ⟨-, rfl⟩ | ⟨-, hd⟩
    · exact move.not_resetting
    · exact h.noReset q d hd
  · intro q d hq hd e he
    rw [System.moved_tables]
    rcases System.moved_caller hd with ⟨rfl, rfl⟩ | ⟨-, hd⟩
    · rcases move.holding he with hold | ⟨o, locked, run, hmem⟩ | ⟨o, row, rest, locked, run, hmem⟩
      · exact hpresent (h.present q c hq hc e hold)
      · obtain ⟨before, owners, first, view⟩ := h.lockView sound hq hc run
        rw [view.found sound hc rfl] at hmem
        rcases List.mem_append.mp hmem with hmem | hmem
        · exact hpresent (view.known e hmem).2
        · exact hpresent ⟨e, (World.mem_found hmem).1, rfl⟩
      · obtain ⟨before, owners, first, view⟩ := h.lockView sound hq hc run
        obtain ⟨done, owner, -, hlocked, -⟩ := view.paused sound hc rfl
        rw [hlocked] at hmem
        rcases List.mem_append.mp hmem with hmem | hmem
        · exact hpresent (view.known e hmem).2
        · exact hpresent ⟨e, (World.mem_found hmem).1, rfl⟩
    · exact hpresent (h.present q d hq hd e he)
  · intro q d o row rest locked hq hd hstage
    rw [System.moved_tables]
    rcases System.moved_caller hd with ⟨rfl, rfl⟩ | ⟨-, hd⟩
    · simp only [Caller.moved] at hstage
      subst hstage
      obtain ⟨before, owners, first, view⟩ := h.lockView sound hq hc move.paused
      obtain ⟨done, owner, -, -, haw⟩ := view.paused sound hc rfl
      exact ⟨before ++ done, owner, haw.mono hstay⟩
    · obtain ⟨done, owner, haw⟩ := h.awaits q d o row rest locked hq hd hstage
      exact ⟨done, owner, haw.mono hstay⟩

theorem Lasting.step (h : Lasting young s) (sound : Sound s) (hs : s.Step event s')
    (hids : DistinctIds s'.world.fresh s'.world.used) (hreset : ∀ p now, event ≠ .call p .reset now) :
    Lasting young s' := by
  cases hs with
  | ignored => exact h
  | @arrives p call now new => exact h.arrives fun hcall => hreset p now (by rw [hcall])
  | moves caller unfinished move => exact h.moves sound caller unfinished move (by simpa using hids)

end Lasting

end UnitLedger.Concurrent
