import UnitLedger.Proofs.Concurrent.Queues

/-!
  UnitLedger.Proofs.Concurrent.Missed — transfers that did not find their target.

  Which rows a transfer locks is decided in the turns of its locking operation, by the entries that
  are there then. Its credit looks its target up once more. If the locking operation has found the
  target, the transfer leads the line of that row ever since and its credit need not wait (`Leads`). So
  a transfer whose credit waits for a lock did not find its target (`Missed`); the entry is another
  one's work in between. `Provided` says this of each stage.
-/

namespace UnitLedger.Concurrent

open Memory (Party World Tables RowLocks)
open Store (Op)

/-- In a turn of the party's locking operation its target had no entry. -/
def Missed (s₀ : System Stage) (es : List Event) (p : Party) (o : TransferOrder) : Prop :=
  ∃ before t after, es = before ++ .turn p t :: after ∧
    (∃ c r, (s₀.run stages before).caller p = some c ∧
      c.progress.lockRun (s₀.run stages before).world p = some (o, r)) ∧
    (s₀.run stages before).world.tables.activeOf o.fund o.target = none

def Leads (t : Tables) (ls : RowLocks) (p : Party) (o : TransferOrder) : Prop :=
  ∃ d, t.activeOf o.fund o.target = some d ∧ (ls.line d.id).head? = some p

/-- Once the locking operation is done with the target, its row is locked or it was not found. -/
def Provided (leads missed : TransferOrder → Prop) : Stage → Prop
  | .lockWaiting o _ rest _ => ∀ done owner,
      World.lockOrder [o.source, o.target] = done ++ owner :: rest → o.target ∈ done →
        leads o ∨ missed o
  | .debiting o _ | .crediting o _ => leads o ∨ missed o
  | .creditWaiting o _ => missed o
  | _ => True

section Missed

variable {s₀ s' : System Stage} {es : List Event} {p : Party} {c : Caller Stage} {now : Instant}
  {w w' : World} {σ : Stage} {answered : Option Op} {event : Event} {o : TransferOrder}
  {young : Party → Prop} {out : Stage.LockResult}

theorem Missed.later (h : Missed s₀ es p o) (event : Event) : Missed s₀ (es ++ [event]) p o := by
  obtain ⟨before, t, after, rfl, hturn⟩ := h
  exact ⟨before, t, after ++ [event], by simp, hturn⟩

theorem Provided.mono {leads leads' missed missed' : TransferOrder → Prop}
    (h : Provided leads missed σ) (hleads : ∀ o, leads o → leads' o)
    (hmissed : ∀ o, missed o → missed' o) : Provided leads' missed' σ := by
  cases σ with
  | lockWaiting o row rest locked =>
    exact fun done owner horder hdone => (h done owner horder hdone).imp (hleads o) (hmissed o)
  | debiting o e | crediting o e => exact Or.imp (hleads o) (hmissed o) h
  | creditWaiting o e => exact hmissed o h
  | _ => trivial

theorem Provided.start {leads missed : TransferOrder → Prop} (fundId entryId : Uuid) (now : Instant)
    (call : Call) : Provided leads missed (Stage.start fundId entryId now call) := by
  cases call with
  | transfer request =>
    simp only [Stage.start]
    split <;> trivial
  | createFund name total owner =>
    simp only [Stage.start]
    repeat' split
    all_goals trivial
  | getOwnership fund owner =>
    simp only [Stage.start]
    split <;> trivial
  | _ => trivial

abbrev ProvidedIn (s₀ : System Stage) (es : List Event) (p : Party) (σ : Stage) : Prop :=
  Provided (Leads (s₀.run stages es).world.tables (s₀.run stages es).world.locks p) (Missed s₀ es p) σ

/-- A turn of the locking operation that is done with the target has locked its row, or has not found
it. -/
theorem LockView.provides {before owners done : List String} {first : List Entry}
    (view : LockView (s₀.run stages es) p c o w' out before owners first)
    (sound : Sound (s₀.run stages es)) (guarded : Guarded (s₀.run stages es))
    (hc : (s₀.run stages es).caller p = some c) (provided : ProvidedIn s₀ es p c.progress)
    (run : c.progress.lockRun (s₀.run stages es).world p = some (o, w', out)) (now : Instant)
    (htarget : o.target ∈ before ++ done)
    (hheads : ∀ e ∈ World.found (s₀.run stages es).world.tables o.fund done,
      (w'.locks.line e.id).head? = some p) :
    Leads w'.tables w'.locks p o ∨ Missed s₀ (es ++ [.turn p now]) p o := by
  have hasks := Stage.lockRun_asks run guarded.sane
  have htables : w'.tables = (s₀.run stages es).world.tables := by
    obtain ⟨locks, rfl⟩ := Stage.lockRun_locks run
    rfl
  rw [htables]
  rcases List.mem_append.mp htarget with hbefore | hdone
  · rcases view.stage with ⟨-, rfl, -⟩ | ⟨row, locked, done', owner, d, hstage, harrived, haw, hd, rfl,
      hfund, howner, rfl, rfl⟩
    · cases hbefore
    · rw [hstage] at provided
      rcases List.mem_append.mp hbefore with hdone' | howned
      · -- The operation was done with the target before this turn.
        refine (provided done' owner haw.order hdone').imp ?_ (·.later _)
        rintro ⟨b, hb, hhead⟩
        exact ⟨b, hb, hasks.head hhead⟩
      · -- The row that was waited for is the target's.
        have hrow := (guarded.waits p c o d.id owners locked hc hstage).1
        obtain rfl := List.mem_singleton.mp howned
        exact Or.inl ⟨d, sound.tables.activeOf_eq_some.mpr ⟨hd, hfund, howner⟩,
          hasks.head (RowLocks.head_of_not_waits harrived hrow)⟩
  · cases htargetOf : (s₀.run stages es).world.tables.activeOf o.fund o.target with
    | none => exact Or.inr ⟨es, now, [], by simp, ⟨c, _, hc, run⟩, htargetOf⟩
    | some d => exact Or.inl ⟨d, htargetOf, hheads d (List.mem_filterMap.mpr ⟨_, hdone, htargetOf⟩)⟩

theorem Lasting.provides (lasting : Lasting young (s₀.run stages es)) (sound : Sound (s₀.run stages es))
    (guarded : Guarded (s₀.run stages es)) (hp : young p) (hc : (s₀.run stages es).caller p = some c)
    (provided : ProvidedIn s₀ es p c.progress)
    (run : c.progress.lockRun (s₀.run stages es).world p = some (o, w', out)) (now : Instant) :
    (∀ locked, out = .inl (.ok locked) →
      Leads w'.tables w'.locks p o ∨ Missed s₀ (es ++ [.turn p now]) p o) ∧
    (∀ row rest locked, out = .inr (row, rest, locked) → ∀ done owner,
      World.lockOrder [o.source, o.target] = done ++ owner :: rest → o.target ∈ done →
        Leads w'.tables w'.locks p o ∨ Missed s₀ (es ++ [.turn p now]) p o) := by
  obtain ⟨before, owners, first, view⟩ := lasting.lockView sound hp hc run
  have hheaded := World.lockRows_headed (p := p) o.fund owners first guarded.sane
  rw [view.run] at hheaded
  constructor
  · rintro locked rfl
    refine view.provides sound guarded hc provided run now ?_ hheaded
    obtain ⟨request, -, hvalid⟩ := (sound.origin p c hc).order o (Stage.lockRun_order? run)
    rw [← view.order]
    exact (World.mem_lockOrder (TransferOrder.accepted hvalid).differ).mpr (Or.inr rfl)
  · rintro row rest locked rfl done owner horder hdone
    obtain ⟨done', owner', rfl, -, hheads, -⟩ := hheaded
    rw [view.order, ← List.append_assoc] at horder
    obtain ⟨rfl, -⟩ := List.append_inj' horder rfl
    exact view.provides sound guarded hc provided run now hdone hheads

theorem Provided.move (provided : ProvidedIn s₀ es p c.progress)
    (lasting : Lasting young (s₀.run stages es)) (sound : Sound (s₀.run stages es))
    (guarded : Guarded (s₀.run stages es)) (hp : young p) (hc : (s₀.run stages es).caller p = some c)
    (move : Stage.Move (s₀.run stages es).world p now c.progress w σ answered) :
    Provided (Leads w.tables w.locks p) (Missed s₀ (es ++ [.turn p now]) p) σ := by
  have hprovides := fun {o : TransferOrder} {w' : World} {out : Stage.LockResult}
    (run : c.progress.lockRun (s₀.run stages es).world p = some (o, w', out)) =>
    lasting.provides sound guarded hp hc provided run now
  generalize c.progress = σ₀ at move provided hprovides
  cases move with
  | lockEnough run => exact (hprovides run).1 _ rfl
  | lockPause run => exact (hprovides run).2 _ _ _ rfl
  | debit => exact Or.imp_right (·.later _) provided
  | creditPause target busy =>
    -- A transfer that holds the lock of its target is given it again.
    refine (Or.resolve_left provided ?_).later _
    rintro ⟨b, hb, hhead⟩
    rw [target] at hb
    cases hb
    have hholds := (RowLocks.holds_iff guarded.sane.tidy).mpr hhead
    simp [RowLocks.acquire, hholds] at busy
  | idle => exact provided.mono (fun _ h => h) (fun _ h => h.later _)
  | @noFund fund reading => cases reading <;> trivial
  | _ => trivial

/-- What is known of the target, after one more event. -/
theorem Provided.step
    (provided : ∀ c, (s₀.run stages es).caller p = some c → ProvidedIn s₀ es p c.progress)
    (lasting : Lasting young (s₀.run stages es)) (sound : Sound (s₀.run stages es))
    (guarded : Guarded (s₀.run stages es)) (hp : young p) (hs : (s₀.run stages es).Step event s')
    (hids : DistinctIds s'.world.fresh s'.world.used) :
    ∀ c, s'.caller p = some c → Provided (Leads s'.world.tables s'.world.locks p)
      (Missed s₀ (es ++ [event]) p) c.progress := by
  intro d hd
  cases hs with
  | ignored => exact (provided d hd).mono (fun _ h => h) (fun _ h => h.later event)
  | arrives new =>
    rcases System.arrive_caller hd with ⟨-, rfl⟩ | ⟨-, hd⟩
    · exact .start _ _ _ _
    · exact (provided d hd).mono (fun _ h => h) (fun _ h => h.later _)
  | @moves q now c w σ answered caller unfinished move =>
    rcases System.moved_caller hd with ⟨rfl, rfl⟩ | ⟨hq, hd⟩
    · have hmoved := (provided c caller).move lasting sound guarded hp caller move
      rw [System.moved_world]
      split
      · rename_i hclosed
        obtain ⟨a, ha⟩ := Option.isSome_iff_exists.mp hclosed
        rw [show (c.moved σ answered).progress = σ from rfl, Stage.answer?_eq_some.mp ha]
        trivial
      · exact hmoved
    · -- Another one's move takes neither the target's entry nor its lock away.
      have hreset := lasting.noReset q c caller
      refine (provided d hd).mono ?_ (fun _ h => h.later _)
      rintro o ⟨b, hb, hhead⟩
      obtain ⟨b', hb', hid⟩ := sound.activeOf_stays caller unfinished move (by simpa using hids)
        hreset hb
      rw [System.moved_tables]
      exact ⟨b', hb', hid ▸ (guarded.acts move hreset).heads b.id p hq hhead⟩

end Missed

end UnitLedger.Concurrent
